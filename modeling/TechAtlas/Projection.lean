import TechAtlas.Detection
import TechAtlas.Library.Table

set_option autoImplicit false

/- The current technologies of a domain and the changes one snapshot makes to
them. -/
namespace TechAtlas

open Library

inductive TechnologyChangeKind
  | added
  | removed
  | migrated
  deriving DecidableEq, Repr

def TechnologyChangeKind.asStr : TechnologyChangeKind → Text
  | .added => "added".toList
  | .removed => "removed".toList
  | .migrated => "migrated".toList

structure TechnologyChange where
  kind : TechnologyChangeKind
  source : Option CurrentTechnology
  target : Option CurrentTechnology
  deriving DecidableEq

structure ProjectionTransition where
  activate : List CurrentTechnology
  deactivate : List CurrentTechnology
  changes : List TechnologyChange

def RuleObservation.state (observation : RuleObservation) : CurrentTechnology where
  technologySlug := observation.technologySlug
  technologyCategorySlug := observation.technologyCategorySlug

section Projection

variable (previous : List CurrentTechnology) (observations : List RuleObservation)

/-- `previous_by_slug.contains_key`. -/
def wasCurrent (slug : TechnologySlug) : Bool :=
  previous.any fun state => state.technologySlug == slug

/-- The observed technologies with the given status, in observation order. -/
def observedAs (status : RuleObservationStatus) : List CurrentTechnology :=
  (observations.filter fun observation => observation.status == status).map
    RuleObservation.state

def additions : List CurrentTechnology :=
  (observedAs observations .detected).filter fun state => !wasCurrent previous state.technologySlug

def removals : List CurrentTechnology :=
  (observedAs observations .confirmedAbsent).filter fun state =>
    wasCurrent previous state.technologySlug

end Projection

def sameCategory (category : TechnologyCategorySlug) (states : List CurrentTechnology) :
    List CurrentTechnology :=
  states.filter fun state => state.technologyCategorySlug == category

/-- The removal an addition is paired with: each is the only one of its category. -/
def migrationSource (additions removals : List CurrentTechnology) (addition : CurrentTechnology) :
    Option CurrentTechnology :=
  match sameCategory addition.technologyCategorySlug removals with
  | [removal] =>
      if (sameCategory addition.technologyCategorySlug additions).length = 1 then some removal
      else none
  | _ => none

def migrations (additions removals : List CurrentTechnology) : List TechnologyChange :=
  additions.filterMap fun addition =>
    (migrationSource additions removals addition).map fun removal =>
      { kind := .migrated, source := some removal, target := some addition }

/-- The slugs `migrated_additions` and `migrated_removals` collect. -/
def migratedTargets (changes : List TechnologyChange) : List TechnologySlug :=
  changes.filterMap fun change => change.target.map CurrentTechnology.technologySlug

def migratedSources (changes : List TechnologyChange) : List TechnologySlug :=
  changes.filterMap fun change => change.source.map CurrentTechnology.technologySlug

def unsortedChanges (additions removals : List CurrentTechnology) : List TechnologyChange :=
  let migrated := migrations additions removals
  let added := additions.filter fun addition =>
    !(migratedTargets migrated).contains addition.technologySlug
  let removed := removals.filter fun removal =>
    !(migratedSources migrated).contains removal.technologySlug
  migrated ++
    added.map (fun addition => { kind := .added, source := none, target := some addition }) ++
    removed.map (fun removal => { kind := .removed, source := some removal, target := none })

/-- `left.to().or(left.from())`, by slug text. -/
def TechnologyChange.subjectText (change : TechnologyChange) : Text :=
  match change.target.orElse fun _ => change.source with
  | some state => state.technologySlug.1
  | none => []

def TechnologyChange.le (left right : TechnologyChange) : Bool :=
  decide (left.kind.asStr < right.kind.asStr) ||
    (left.kind == right.kind && decide (left.subjectText ≤ right.subjectText))

/-- Sorted by slug, keeping the first of each run of equal slugs. -/
def sortedBySlug (states : List CurrentTechnology) : List CurrentTechnology :=
  (states.insertionSort fun left right => left.technologySlug.1 ≤ right.technologySlug.1).destutter
    fun left right => left.technologySlug ≠ right.technologySlug

def deriveProjection (previous : List CurrentTechnology) (observations : List RuleObservation) :
    ProjectionTransition where
  activate := sortedBySlug (observedAs observations .detected)
  deactivate := sortedBySlug (removals previous observations)
  changes :=
    (unsortedChanges (additions previous observations) (removals previous observations)).insertionSort
      fun left right => left.le right

section Changes

variable {additions removals : List CurrentTechnology}

theorem mem_observedAs {observations : List RuleObservation} {status : RuleObservationStatus}
    {state : CurrentTechnology} :
    state ∈ observedAs observations status ↔
      ∃ observation ∈ observations, observation.status = status ∧ observation.state = state := by
  simp [observedAs, and_assoc]

/-- Each technology is in one observation, so at most one addition and at most
one removal are of it. -/
theorem observedAs_slugs_nodup {observations : List RuleObservation}
    {status : RuleObservationStatus} {kept : CurrentTechnology → Bool}
    (distinct : (observations.map RuleObservation.technologySlug).Nodup) :
    (((observedAs observations status).filter kept).map CurrentTechnology.technologySlug).Nodup := by
  have whole : ((observedAs observations status).map CurrentTechnology.technologySlug).Nodup := by
    rw [observedAs, List.map_map]
    exact distinct.sublist (List.filter_sublist.map _)
  exact whole.sublist (List.filter_sublist.map _)

theorem wasCurrent_eq_true {previous : List CurrentTechnology} {slug : TechnologySlug} :
    wasCurrent previous slug = true ↔ ∃ state ∈ previous, state.technologySlug = slug := by
  simp only [wasCurrent, List.any_eq_true, beq_iff_eq]

theorem migrationSource_mem {addition removal : CurrentTechnology}
    (paired : migrationSource additions removals addition = some removal) : removal ∈ removals := by
  unfold migrationSource at paired
  split at paired
  · rename_i only single
    split at paired
    · rw [← Option.some.inj paired]
      have inCategory : only ∈ sameCategory addition.technologyCategorySlug removals := by
        rw [single]
        exact List.mem_singleton_self only
      exact List.mem_of_mem_filter inCategory
    · cases paired
  · cases paired

theorem mem_migrations {change : TechnologyChange} :
    change ∈ migrations additions removals ↔ ∃ addition ∈ additions, ∃ removal,
      migrationSource additions removals addition = some removal ∧
        change = { kind := .migrated, source := some removal, target := some addition } := by
  simp [migrations, eq_comm]

/-- A change joins a removal and an addition, or records one of them alone. -/
theorem mem_unsortedChanges {change : TechnologyChange}
    (member : change ∈ unsortedChanges additions removals) :
    (∃ addition ∈ additions, ∃ removal ∈ removals,
        change = { kind := .migrated, source := some removal, target := some addition }) ∨
      (∃ addition ∈ additions,
        change = { kind := .added, source := none, target := some addition }) ∨
      (∃ removal ∈ removals,
        change = { kind := .removed, source := some removal, target := none }) := by
  unfold unsortedChanges at member
  rcases List.mem_append.mp member with earlier | isRemoved
  · rcases List.mem_append.mp earlier with isMigrated | isAdded
    · obtain ⟨addition, inAdditions, removal, paired, rfl⟩ := mem_migrations.mp isMigrated
      exact Or.inl ⟨addition, inAdditions, removal, migrationSource_mem paired, rfl⟩
    · obtain ⟨addition, kept, rfl⟩ := List.mem_map.mp isAdded
      exact Or.inr (Or.inl ⟨addition, List.mem_of_mem_filter kept, rfl⟩)
  · obtain ⟨removal, kept, rfl⟩ := List.mem_map.mp isRemoved
    exact Or.inr (Or.inr ⟨removal, List.mem_of_mem_filter kept, rfl⟩)

variable (removals) in
/-- Every addition is the target of a change: of its migration, or of its own. -/
theorem exists_change_to {addition : CurrentTechnology} (member : addition ∈ additions) :
    ∃ change ∈ unsortedChanges additions removals, ∃ state, change.target = some state ∧
      state.technologySlug = addition.technologySlug := by
  by_cases migrated : addition.technologySlug ∈ migratedTargets (migrations additions removals)
  · obtain ⟨change, inMigrations, same⟩ := List.mem_filterMap.mp migrated
    obtain ⟨state, target, slug⟩ := Option.map_eq_some_iff.mp same
    exact ⟨change, List.mem_append_left _ (List.mem_append_left _ inMigrations), state, target, slug⟩
  · refine ⟨{ kind := .added, source := none, target := some addition }, ?_, addition, rfl, rfl⟩
    apply List.mem_append_left
    apply List.mem_append_right
    exact List.mem_map_of_mem (List.mem_filter.mpr ⟨member, by simpa using migrated⟩)

variable (additions) in
theorem exists_change_from {removal : CurrentTechnology} (member : removal ∈ removals) :
    ∃ change ∈ unsortedChanges additions removals, ∃ state, change.source = some state ∧
      state.technologySlug = removal.technologySlug := by
  by_cases migrated : removal.technologySlug ∈ migratedSources (migrations additions removals)
  · obtain ⟨change, inMigrations, same⟩ := List.mem_filterMap.mp migrated
    obtain ⟨state, source, slug⟩ := Option.map_eq_some_iff.mp same
    exact ⟨change, List.mem_append_left _ (List.mem_append_left _ inMigrations), state, source, slug⟩
  · refine ⟨{ kind := .removed, source := some removal, target := none }, ?_, removal, rfl, rfl⟩
    apply List.mem_append_right
    exact List.mem_map_of_mem (List.mem_filter.mpr ⟨member, by simpa using migrated⟩)

/-- A migration is of the category of its addition, which is the only one there. -/
theorem migrationSource_eq_some {addition removal : CurrentTechnology}
    (paired : migrationSource additions removals addition = some removal) :
    removal.technologyCategorySlug = addition.technologyCategorySlug ∧
      (sameCategory addition.technologyCategorySlug additions).length = 1 := by
  unfold migrationSource at paired
  split at paired
  · rename_i only single
    split at paired
    · rename_i alone
      rw [← Option.some.inj paired]
      have inCategory : only ∈ sameCategory addition.technologyCategorySlug removals := by
        rw [single]
        exact List.mem_singleton_self only
      exact ⟨beq_iff_eq.mp (List.mem_filter.mp inCategory).2, alone⟩
    · cases paired
  · cases paired

/-- Two additions do not share the removal they migrate from. -/
theorem migrationSource_injective (distinct : (removals.map CurrentTechnology.technologySlug).Nodup)
    {left right first second : CurrentTechnology} (inLeft : left ∈ additions)
    (inRight : right ∈ additions)
    (fromFirst : migrationSource additions removals left = some first)
    (fromSecond : migrationSource additions removals right = some second)
    (same : first.technologySlug = second.technologySlug) : left = right := by
  have one : first = second := eq_of_key_eq distinct (migrationSource_mem fromFirst)
    (migrationSource_mem fromSecond) same
  obtain ⟨leftCategory, alone⟩ := migrationSource_eq_some fromFirst
  obtain ⟨rightCategory, _⟩ := migrationSource_eq_some fromSecond
  have categories : right.technologyCategorySlug = left.technologyCategorySlug := by
    rw [← rightCategory, ← leftCategory, one]
  obtain ⟨only, single⟩ := List.length_eq_one_iff.mp alone
  have leftOnly : left ∈ sameCategory left.technologyCategorySlug additions :=
    List.mem_filter.mpr ⟨inLeft, beq_self_eq_true _⟩
  have rightOnly : right ∈ sameCategory left.technologyCategorySlug additions :=
    List.mem_filter.mpr ⟨inRight, by rw [categories, beq_self_eq_true]⟩
  rw [single, List.mem_singleton] at leftOnly rightOnly
  rw [leftOnly, rightOnly]

theorem migratedTargets_append (first second : List TechnologyChange) :
    migratedTargets (first ++ second) = migratedTargets first ++ migratedTargets second :=
  List.filterMap_append

theorem migratedSources_append (first second : List TechnologyChange) :
    migratedSources (first ++ second) = migratedSources first ++ migratedSources second :=
  List.filterMap_append

theorem migratedTargets_unsorted :
    migratedTargets (unsortedChanges additions removals) =
      migratedTargets (migrations additions removals) ++
        (additions.filter fun addition => !(migratedTargets
          (migrations additions removals)).contains addition.technologySlug).map
            CurrentTechnology.technologySlug := by
  unfold unsortedChanges
  rw [migratedTargets_append, migratedTargets_append]
  simp [migratedTargets, List.filterMap_map]

theorem migratedSources_unsorted :
    migratedSources (unsortedChanges additions removals) =
      migratedSources (migrations additions removals) ++
        (removals.filter fun removal => !(migratedSources
          (migrations additions removals)).contains removal.technologySlug).map
            CurrentTechnology.technologySlug := by
  unfold unsortedChanges
  rw [migratedSources_append, migratedSources_append]
  simp [migratedSources, List.filterMap_map]

/-- The rest of a keyed list next to the keys already used. -/
theorem nodup_append_unused {used : List TechnologySlug} {states : List CurrentTechnology}
    (usedOnce : used.Nodup) (distinct : (states.map CurrentTechnology.technologySlug).Nodup) :
    (used ++ (states.filter fun state => !used.contains state.technologySlug).map
      CurrentTechnology.technologySlug).Nodup := by
  rw [List.nodup_append]
  refine ⟨usedOnce, distinct.sublist (List.filter_sublist.map _), ?_⟩
  intro slug inUsed other inRest same
  obtain ⟨state, kept, rfl⟩ := List.mem_map.mp inRest
  have unused := (List.mem_filter.mp kept).2
  simp only [Bool.not_eq_true', List.contains_eq_mem, decide_eq_false_iff_not] at unused
  exact unused (same ▸ inUsed)

variable (removals) in
theorem migratedTargets_nodup
    (distinct : (additions.map CurrentTechnology.technologySlug).Nodup) :
    (migratedTargets (unsortedChanges additions removals)).Nodup := by
  rw [migratedTargets_unsorted]
  refine nodup_append_unused ?_ distinct
  have each : migratedTargets (migrations additions removals) = additions.filterMap fun addition =>
      (migrationSource additions removals addition).map fun _ => addition.technologySlug := by
    rw [migratedTargets, migrations, List.filterMap_filterMap]
    apply List.filterMap_congr
    intro addition _
    cases migrationSource additions removals addition <;> rfl
  rw [each, List.Nodup, List.pairwise_filterMap]
  have apart : additions.Pairwise fun left right => left.technologySlug ≠ right.technologySlug :=
    List.pairwise_map.mp distinct
  refine apart.imp ?_
  intro left right differ slug inLeft other inRight
  obtain ⟨_, _, rfl⟩ := Option.map_eq_some_iff.mp inLeft
  obtain ⟨_, _, rfl⟩ := Option.map_eq_some_iff.mp inRight
  exact differ

theorem migratedSources_nodup
    (distinctAdditions : (additions.map CurrentTechnology.technologySlug).Nodup)
    (distinct : (removals.map CurrentTechnology.technologySlug).Nodup) :
    (migratedSources (unsortedChanges additions removals)).Nodup := by
  rw [migratedSources_unsorted]
  refine nodup_append_unused ?_ distinct
  have each : migratedSources (migrations additions removals) = additions.filterMap fun addition =>
      (migrationSource additions removals addition).map CurrentTechnology.technologySlug := by
    rw [migratedSources, migrations, List.filterMap_filterMap]
    apply List.filterMap_congr
    intro addition _
    cases migrationSource additions removals addition <;> rfl
  rw [each, List.Nodup, List.pairwise_filterMap]
  have apart : additions.Pairwise (· ≠ ·) := distinctAdditions.of_map
  refine apart.imp_of_mem ?_
  intro left right inLeft inRight differ slug isLeft other isRight same
  obtain ⟨first, fromFirst, rfl⟩ := Option.map_eq_some_iff.mp isLeft
  obtain ⟨second, fromSecond, rfl⟩ := Option.map_eq_some_iff.mp isRight
  exact differ (migrationSource_injective distinct inLeft inRight fromFirst fromSecond same)

end Changes

section Sorted

theorem mem_of_mem_sortedBySlug {states : List CurrentTechnology} {state : CurrentTechnology}
    (member : state ∈ sortedBySlug states) : state ∈ states :=
  (List.mem_insertionSort _).mp ((List.destutter_sublist _ _).subset member)

/-- Sorting keeps one state of every slug. -/
theorem exists_mem_sortedBySlug {states : List CurrentTechnology} {P : TechnologySlug → Prop} :
    (∃ state ∈ sortedBySlug states, P state.technologySlug) ↔
      ∃ state ∈ states, P state.technologySlug := by
  constructor
  · rintro ⟨state, member, holds⟩
    exact ⟨state, mem_of_mem_sortedBySlug member, holds⟩
  · rintro ⟨state, member, holds⟩
    have sorted : state ∈ states.insertionSort fun left right =>
        left.technologySlug.1 ≤ right.technologySlug.1 := (List.mem_insertionSort _).mpr member
    unfold sortedBySlug
    cases order : states.insertionSort fun left right =>
        left.technologySlug.1 ≤ right.technologySlug.1 with
    | nil =>
        rw [order] at sorted
        cases sorted
    | cons first rest =>
        rw [order] at sorted
        obtain ⟨kept, inKept, same⟩ :=
          exists_mem_destutter' CurrentTechnology.technologySlug sorted
        exact ⟨kept, inKept, same ▸ holds⟩

end Sorted

end TechAtlas
