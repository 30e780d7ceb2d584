import TechAtlas.Library.ChangeLog
import TechAtlas.Projection

set_option autoImplicit false

/- What `derive_projection` computes: the step of a set of technologies that one
snapshot makes, and a change log that tells exactly this step. -/
namespace TechAtlas

open Library

section Sets

variable (previous : List CurrentTechnology) (observations : List RuleObservation)

/-- A technology is known by its slug. -/
def slugsOf (states : List CurrentTechnology) : Finset TechnologySlug :=
  (states.map CurrentTechnology.technologySlug).toFinset

/-- The technologies after the snapshot: the absent ones are gone and the detected
ones are there. -/
def nextTechnologies : Finset TechnologySlug :=
  (slugsOf previous \ slugsOf (observedAs observations .confirmedAbsent)) ∪
    slugsOf (observedAs observations .detected)

def TechnologyChange.delta (change : TechnologyChange) : Delta TechnologySlug where
  removed := change.source.map CurrentTechnology.technologySlug
  added := change.target.map CurrentTechnology.technologySlug

def TechnologyChange.mentions (slug : TechnologySlug) (change : TechnologyChange) : Bool :=
  change.delta.removed == some slug || change.delta.added == some slug

def TechnologyChange.isIn (category : TechnologyCategorySlug) (change : TechnologyChange) : Prop :=
  ∃ state, (change.source = some state ∨ change.target = some state) ∧
    state.technologyCategorySlug = category

theorem mem_slugsOf {states : List CurrentTechnology} {slug : TechnologySlug} :
    slug ∈ slugsOf states ↔ ∃ state ∈ states, state.technologySlug = slug := by
  simp [slugsOf]

end Sets

section Step

variable {previous : List CurrentTechnology} {observations : List RuleObservation}
  {slug : TechnologySlug}

theorem mem_slugsOf_additions :
    slug ∈ slugsOf (additions previous observations) ↔
      slug ∈ slugsOf (observedAs observations .detected) ∧ slug ∉ slugsOf previous := by
  simp only [mem_slugsOf, additions, List.mem_filter, Bool.not_eq_true']
  constructor
  · rintro ⟨state, ⟨detected, fresh⟩, rfl⟩
    refine ⟨⟨state, detected, rfl⟩, ?_⟩
    rw [← wasCurrent_eq_true, fresh]
    exact Bool.false_ne_true
  · rintro ⟨⟨state, detected, rfl⟩, fresh⟩
    rw [← wasCurrent_eq_true, Bool.not_eq_true] at fresh
    exact ⟨state, ⟨detected, fresh⟩, rfl⟩

theorem mem_slugsOf_removals :
    slug ∈ slugsOf (removals previous observations) ↔
      slug ∈ slugsOf (observedAs observations .confirmedAbsent) ∧ slug ∈ slugsOf previous := by
  simp only [mem_slugsOf, removals, List.mem_filter, wasCurrent_eq_true]
  constructor
  · rintro ⟨state, ⟨absent, held⟩, rfl⟩
    exact ⟨⟨state, absent, rfl⟩, held⟩
  · rintro ⟨⟨state, absent, rfl⟩, held⟩
    exact ⟨state, ⟨absent, held⟩, rfl⟩

/-- No technology is observed as both detected and absent. -/
theorem detected_not_absent (distinct : (observations.map RuleObservation.technologySlug).Nodup)
    (detected : slug ∈ slugsOf (observedAs observations .detected)) :
    slug ∉ slugsOf (observedAs observations .confirmedAbsent) := by
  intro absent
  obtain ⟨state, inDetected, rfl⟩ := mem_slugsOf.mp detected
  obtain ⟨other, inAbsent, same⟩ := mem_slugsOf.mp absent
  obtain ⟨first, inFirst, isDetected, rfl⟩ := mem_observedAs.mp inDetected
  obtain ⟨second, inSecond, isAbsent, rfl⟩ := mem_observedAs.mp inAbsent
  rw [eq_of_key_eq distinct inSecond inFirst same, isDetected] at isAbsent
  cases isAbsent

theorem slugsOf_activate :
    slugsOf (deriveProjection previous observations).activate =
      slugsOf (observedAs observations .detected) := by
  ext slug
  rw [mem_slugsOf, mem_slugsOf]
  exact exists_mem_sortedBySlug (P := fun other => other = slug)

theorem slugsOf_deactivate :
    slugsOf (deriveProjection previous observations).deactivate =
      slugsOf (removals previous observations) := by
  ext slug
  rw [mem_slugsOf, mem_slugsOf]
  exact exists_mem_sortedBySlug (P := fun other => other = slug)

/-- Taking out and putting in what the transition says makes the step. -/
theorem deriveProjection_step :
    (slugsOf previous \ slugsOf (deriveProjection previous observations).deactivate) ∪
      slugsOf (deriveProjection previous observations).activate =
      nextTechnologies previous observations := by
  ext slug
  rw [slugsOf_activate, slugsOf_deactivate, nextTechnologies]
  simp only [Finset.mem_union, Finset.mem_sdiff, mem_slugsOf_removals]
  tauto

theorem mem_additions_iff_new :
    slug ∈ slugsOf (additions previous observations) ↔
      slug ∈ nextTechnologies previous observations ∧ slug ∉ slugsOf previous := by
  rw [mem_slugsOf_additions, nextTechnologies]
  simp only [Finset.mem_union, Finset.mem_sdiff]
  tauto

theorem mem_removals_iff_gone (distinct : (observations.map RuleObservation.technologySlug).Nodup) :
    slug ∈ slugsOf (removals previous observations) ↔
      slug ∈ slugsOf previous ∧ slug ∉ nextTechnologies previous observations := by
  have apart : slug ∈ slugsOf (observedAs observations .detected) →
      slug ∉ slugsOf (observedAs observations .confirmedAbsent) := detected_not_absent distinct
  rw [mem_slugsOf_removals, nextTechnologies]
  simp only [Finset.mem_union, Finset.mem_sdiff]
  tauto

end Step

section Log

variable {previous : List CurrentTechnology} {observations : List RuleObservation}
  {gained lost : List CurrentTechnology} {slug : TechnologySlug}

theorem mem_changes {change : TechnologyChange} :
    change ∈ (deriveProjection previous observations).changes ↔
      change ∈ unsortedChanges (additions previous observations)
        (removals previous observations) :=
  List.mem_insertionSort _

variable (lost) in
/-- The targets of the changes are the additions. -/
theorem exists_added_iff :
    (∃ change ∈ unsortedChanges gained lost, change.delta.added = some slug) ↔
      slug ∈ slugsOf gained := by
  rw [mem_slugsOf]
  constructor
  · rintro ⟨change, member, added⟩
    obtain ⟨state, target, rfl⟩ := Option.map_eq_some_iff.mp added
    rcases mem_unsortedChanges member with ⟨addition, inGained, _, _, rfl⟩ |
      ⟨addition, inGained, rfl⟩ | ⟨_, _, rfl⟩
    · cases target
      exact ⟨_, inGained, rfl⟩
    · cases target
      exact ⟨_, inGained, rfl⟩
    · cases target
  · rintro ⟨addition, inGained, rfl⟩
    obtain ⟨change, member, state, target, same⟩ := exists_change_to lost inGained
    exact ⟨change, member, Option.map_eq_some_iff.mpr ⟨state, target, same⟩⟩

variable (gained) in
theorem exists_removed_iff :
    (∃ change ∈ unsortedChanges gained lost, change.delta.removed = some slug) ↔
      slug ∈ slugsOf lost := by
  rw [mem_slugsOf]
  constructor
  · rintro ⟨change, member, removed⟩
    obtain ⟨state, source, rfl⟩ := Option.map_eq_some_iff.mp removed
    rcases mem_unsortedChanges member with ⟨_, _, removal, inLost, rfl⟩ | ⟨_, _, rfl⟩ |
      ⟨removal, inLost, rfl⟩
    · cases source
      exact ⟨_, inLost, rfl⟩
    · cases source
    · cases source
      exact ⟨_, inLost, rfl⟩
  · rintro ⟨removal, inLost, rfl⟩
    obtain ⟨change, member, state, source, same⟩ := exists_change_from gained inLost
    exact ⟨change, member, Option.map_eq_some_iff.mpr ⟨state, source, same⟩⟩

/-- What was not there is put in and what was there is taken out. -/
theorem changes_consistent :
    Consistent ((deriveProjection previous observations).changes.map TechnologyChange.delta) := by
  rintro slug ⟨adder, inAdders, added⟩ remover inRemovers removed
  obtain ⟨change, member, rfl⟩ := List.mem_map.mp inAdders
  obtain ⟨other, inChanges, rfl⟩ := List.mem_map.mp inRemovers
  have gained := (exists_added_iff _).mp ⟨change, mem_changes.mp member, added⟩
  have lost := (exists_removed_iff _).mp ⟨other, mem_changes.mp inChanges, removed⟩
  exact (mem_slugsOf_additions.mp gained).2 (mem_slugsOf_removals.mp lost).2

theorem replay_changes (distinct : (observations.map RuleObservation.technologySlug).Nodup) :
    replay (slugsOf previous)
        ((deriveProjection previous observations).changes.map TechnologyChange.delta) =
      nextTechnologies previous observations := by
  ext slug
  rw [mem_replay changes_consistent]
  have puts : (∃ delta ∈ (deriveProjection previous observations).changes.map
      TechnologyChange.delta, delta.added = some slug) ↔
      slug ∈ slugsOf (additions previous observations) := by
    rw [← exists_added_iff (removals previous observations)]
    constructor
    · rintro ⟨delta, member, added⟩
      obtain ⟨change, inChanges, rfl⟩ := List.mem_map.mp member
      exact ⟨change, mem_changes.mp inChanges, added⟩
    · rintro ⟨change, member, added⟩
      exact ⟨change.delta, List.mem_map_of_mem (mem_changes.mpr member), added⟩
  have takes : (∀ delta ∈ (deriveProjection previous observations).changes.map
      TechnologyChange.delta, delta.removed ≠ some slug) ↔
      slug ∉ slugsOf (removals previous observations) := by
    rw [← exists_removed_iff (additions previous observations)]
    simp only [List.forall_mem_map, mem_changes, not_exists, not_and, ne_eq]
  rw [puts, takes, mem_additions_iff_new, mem_removals_iff_gone distinct]
  tauto

/-- A key that occurs, and only once among the keys, is that of one item. -/
theorem countP_eq_one {f : TechnologyChange → Option TechnologySlug}
    {changes : List TechnologyChange} (once : (changes.filterMap f).Nodup)
    (occurs : ∃ change ∈ changes, f change = some slug) :
    changes.countP (fun change => f change == some slug) = 1 := by
  rw [← List.count_filterMap]
  obtain ⟨change, member, same⟩ := occurs
  exact List.count_eq_one_of_mem once (List.mem_filterMap.mpr ⟨change, member, same⟩)

/-- Every technology that comes or goes is told by one change, and no other one is
told of. -/
theorem countP_mentions (distinct : (observations.map RuleObservation.technologySlug).Nodup)
    (slug : TechnologySlug) :
    (deriveProjection previous observations).changes.countP (TechnologyChange.mentions slug) =
      if slug ∈ slugsOf previous ↔ slug ∈ nextTechnologies previous observations then 0 else 1 := by
  let gained := additions previous observations
  let lost := removals previous observations
  have sorted : (deriveProjection previous observations).changes.Perm (unsortedChanges gained lost) :=
    List.perm_insertionSort _ _
  rw [sorted.countP_eq]
  have gainedOnce : (gained.map CurrentTechnology.technologySlug).Nodup :=
    observedAs_slugs_nodup distinct
  have lostOnce : (lost.map CurrentTechnology.technologySlug).Nodup :=
    observedAs_slugs_nodup distinct
  have new : slug ∈ slugsOf gained ↔
      slug ∈ nextTechnologies previous observations ∧ slug ∉ slugsOf previous :=
    mem_additions_iff_new
  have gone : slug ∈ slugsOf lost ↔
      slug ∈ slugsOf previous ∧ slug ∉ nextTechnologies previous observations :=
    mem_removals_iff_gone distinct
  by_cases added : slug ∈ slugsOf gained
  · have notLost : slug ∉ slugsOf lost := by tauto
    have only : (unsortedChanges gained lost).countP (TechnologyChange.mentions slug) =
        (unsortedChanges gained lost).countP
          (fun change => change.target.map CurrentTechnology.technologySlug == some slug) := by
      apply List.countP_congr
      intro change member
      have kept : ¬ change.delta.removed = some slug := fun removed =>
        notLost ((exists_removed_iff _).mp ⟨change, member, removed⟩)
      rw [TechnologyChange.mentions, beq_eq_false_iff_ne.mpr kept, Bool.false_or]
      rfl
    rw [only, countP_eq_one (migratedTargets_nodup lost gainedOnce) ((exists_added_iff lost).mpr added),
      if_neg (by tauto)]
  · have unadded : ∀ change ∈ unsortedChanges gained lost, change.delta.added ≠ some slug :=
      fun change member same => added ((exists_added_iff _).mp ⟨change, member, same⟩)
    have only : (unsortedChanges gained lost).countP (TechnologyChange.mentions slug) =
        (unsortedChanges gained lost).countP
          (fun change => change.source.map CurrentTechnology.technologySlug == some slug) := by
      apply List.countP_congr
      intro change member
      rw [TechnologyChange.mentions, beq_eq_false_iff_ne.mpr (unadded change member), Bool.or_false]
      rfl
    by_cases removed : slug ∈ slugsOf lost
    · rw [only, countP_eq_one (migratedSources_nodup gainedOnce lostOnce)
        ((exists_removed_iff gained).mpr removed), if_neg (by tauto)]
    · rw [only, if_pos (by tauto), List.countP_eq_zero]
      intro change member same
      exact removed ((exists_removed_iff gained).mp ⟨change, member, beq_iff_eq.mp same⟩)

end Log

section Migrations

variable {gained lost : List CurrentTechnology} {category : TechnologyCategorySlug}

/-- One technology of the category is gained and one is lost. -/
def IsExchange (gained lost : List CurrentTechnology) (category : TechnologyCategorySlug) : Prop :=
  (sameCategory category gained).length = 1 ∧ (sameCategory category lost).length = 1

theorem mem_sameCategory {states : List CurrentTechnology} {state : CurrentTechnology} :
    state ∈ sameCategory category states ↔
      state ∈ states ∧ state.technologyCategorySlug = category := by
  rw [sameCategory, List.mem_filter, beq_iff_eq]

theorem migrationSource_of_isExchange {addition : CurrentTechnology}
    (exchange : IsExchange gained lost addition.technologyCategorySlug) :
    ∃ removal, migrationSource gained lost addition = some removal := by
  obtain ⟨removal, single⟩ := List.length_eq_one_iff.mp exchange.2
  refine ⟨removal, ?_⟩
  rw [migrationSource, single]
  exact if_pos exchange.1

theorem isExchange_of_migrationSource {addition removal : CurrentTechnology}
    (paired : migrationSource gained lost addition = some removal) :
    IsExchange gained lost addition.technologyCategorySlug := by
  refine ⟨(migrationSource_eq_some paired).2, ?_⟩
  unfold migrationSource at paired
  split at paired
  · rename_i only single
    rw [single]
    rfl
  · cases paired

theorem mem_unsorted_migrated {change : TechnologyChange}
    (member : change ∈ unsortedChanges gained lost) (migrated : change.kind = .migrated) :
    change ∈ migrations gained lost := by
  unfold unsortedChanges at member
  rcases List.mem_append.mp member with earlier | isRemoved
  · rcases List.mem_append.mp earlier with isMigrated | isAdded
    · exact isMigrated
    · obtain ⟨_, _, rfl⟩ := List.mem_map.mp isAdded
      cases migrated
  · obtain ⟨_, _, rfl⟩ := List.mem_map.mp isRemoved
    cases migrated

/-- A category has a migration exactly where it exchanges one technology for
another. -/
theorem exists_migrated_iff :
    (∃ change ∈ unsortedChanges gained lost, change.kind = .migrated ∧ change.isIn category) ↔
      IsExchange gained lost category := by
  constructor
  · rintro ⟨change, member, migrated, state, touched, same⟩
    obtain ⟨addition, _, removal, paired, rfl⟩ :=
      mem_migrations.mp (mem_unsorted_migrated member migrated)
    have exchange := isExchange_of_migrationSource paired
    have own : addition.technologyCategorySlug = category := by
      rcases touched with source | target
      · rw [← (migrationSource_eq_some paired).1, Option.some.inj source]
        exact same
      · rw [Option.some.inj target]
        exact same
    rw [own] at exchange
    exact exchange
  · intro exchange
    obtain ⟨addition, single⟩ := List.length_eq_one_iff.mp exchange.1
    have inCategory : addition ∈ sameCategory category gained := by
      rw [single]
      exact List.mem_singleton_self addition
    obtain ⟨inGained, own⟩ := mem_sameCategory.mp inCategory
    rw [← own] at exchange
    obtain ⟨removal, paired⟩ := migrationSource_of_isExchange exchange
    have migration := mem_migrations.mpr ⟨addition, inGained, removal, paired, rfl⟩
    exact ⟨_, List.mem_append_left _ (List.mem_append_left _ migration), rfl, addition,
      Or.inr rfl, own⟩

/-- Then neither technology of the exchange has a change of its own. -/
theorem migrated_of_isExchange (exchange : IsExchange gained lost category)
    {change : TechnologyChange} (member : change ∈ unsortedChanges gained lost)
    (inCategory : change.isIn category) : change.kind = .migrated := by
  obtain ⟨state, touched, same⟩ := inCategory
  unfold unsortedChanges at member
  rcases List.mem_append.mp member with earlier | isRemoved
  · rcases List.mem_append.mp earlier with isMigrated | isAdded
    · obtain ⟨_, _, _, _, rfl⟩ := mem_migrations.mp isMigrated
      rfl
    · exfalso
      obtain ⟨addition, kept, rfl⟩ := List.mem_map.mp isAdded
      obtain ⟨inGained, unused⟩ := List.mem_filter.mp kept
      have own : addition = state := by
        rcases touched with source | target
        · cases source
        · exact Option.some.inj target
      rw [← own] at same
      rw [← same] at exchange
      obtain ⟨removal, paired⟩ := migrationSource_of_isExchange exchange
      have migration := mem_migrations.mpr ⟨addition, inGained, removal, paired, rfl⟩
      have used : addition.technologySlug ∈ migratedTargets (migrations gained lost) :=
        List.mem_filterMap.mpr ⟨_, migration, rfl⟩
      simp only [Bool.not_eq_true', List.contains_eq_mem, decide_eq_false_iff_not] at unused
      exact unused used
  · exfalso
    obtain ⟨removal, kept, rfl⟩ := List.mem_map.mp isRemoved
    obtain ⟨inLost, unused⟩ := List.mem_filter.mp kept
    have own : removal = state := by
      rcases touched with source | target
      · exact Option.some.inj source
      · cases target
    rw [← own] at same
    obtain ⟨only, single⟩ := List.length_eq_one_iff.mp exchange.2
    have inCategory : removal ∈ sameCategory category lost := mem_sameCategory.mpr ⟨inLost, same⟩
    rw [single, List.mem_singleton] at inCategory
    obtain ⟨addition, alone⟩ := List.length_eq_one_iff.mp exchange.1
    have ofCategory : addition ∈ sameCategory category gained := by
      rw [alone]
      exact List.mem_singleton_self addition
    obtain ⟨inGained, additionCategory⟩ := mem_sameCategory.mp ofCategory
    have paired : migrationSource gained lost addition = some removal := by
      rw [migrationSource, additionCategory, single, inCategory]
      exact if_pos exchange.1
    have migration := mem_migrations.mpr ⟨addition, inGained, removal, paired, rfl⟩
    have used : removal.technologySlug ∈ migratedSources (migrations gained lost) :=
      List.mem_filterMap.mpr ⟨_, migration, rfl⟩
    simp only [Bool.not_eq_true', List.contains_eq_mem, decide_eq_false_iff_not] at unused
    exact unused used

end Migrations

section Order

variable {gained lost gained' lost' : List CurrentTechnology}

theorem migrationSource_iff {addition removal : CurrentTechnology} :
    migrationSource gained lost addition = some removal ↔
      IsExchange gained lost addition.technologyCategorySlug ∧
        removal ∈ sameCategory addition.technologyCategorySlug lost := by
  constructor
  · intro paired
    exact ⟨isExchange_of_migrationSource paired,
      mem_sameCategory.mpr ⟨migrationSource_mem paired, (migrationSource_eq_some paired).1⟩⟩
  · rintro ⟨exchange, member⟩
    obtain ⟨only, single⟩ := List.length_eq_one_iff.mp exchange.2
    rw [single, List.mem_singleton] at member
    rw [migrationSource, single, member]
    exact if_pos exchange.1

theorem migrationSource_perm (gains : gained'.Perm gained) (losses : lost'.Perm lost) :
    migrationSource gained' lost' = migrationSource gained lost := by
  funext addition
  apply Option.ext
  intro removal
  have more : (sameCategory addition.technologyCategorySlug gained').Perm
      (sameCategory addition.technologyCategorySlug gained) := gains.filter _
  have fewer : (sameCategory addition.technologyCategorySlug lost').Perm
      (sameCategory addition.technologyCategorySlug lost) := losses.filter _
  rw [migrationSource_iff, migrationSource_iff, IsExchange, IsExchange, more.length_eq,
    fewer.length_eq, fewer.mem_iff]

theorem unsortedChanges_perm (gains : gained'.Perm gained) (losses : lost'.Perm lost) :
    (unsortedChanges gained' lost').Perm (unsortedChanges gained lost) := by
  have migrated : (migrations gained' lost').Perm (migrations gained lost) := by
    rw [migrations, migrationSource_perm gains losses]
    exact gains.filterMap _
  have targets : ∀ slug, (migratedTargets (migrations gained' lost')).contains slug =
      (migratedTargets (migrations gained lost)).contains slug := by
    intro slug
    rw [Bool.eq_iff_iff, List.contains_iff_mem, List.contains_iff_mem]
    exact (migrated.filterMap _).mem_iff
  have sources : ∀ slug, (migratedSources (migrations gained' lost')).contains slug =
      (migratedSources (migrations gained lost)).contains slug := by
    intro slug
    rw [Bool.eq_iff_iff, List.contains_iff_mem, List.contains_iff_mem]
    exact (migrated.filterMap _).mem_iff
  unfold unsortedChanges
  simp only [targets, sources]
  exact (migrated.append ((gains.filter _).map _)).append ((losses.filter _).map _)

theorem asStr_injective {left right : TechnologyChangeKind} (same : left.asStr = right.asStr) :
    left = right := by
  revert same
  cases left <;> cases right <;> decide

/-- Changes are ordered by the text of their kind, then by their subject. -/
theorem TechnologyChange.le_iff (left right : TechnologyChange) :
    left.le right = true ↔
      toLex (left.kind.asStr, left.subjectText) ≤ toLex (right.kind.asStr, right.subjectText) := by
  rw [TechnologyChange.le, Prod.Lex.toLex_le_toLex, Bool.or_eq_true, Bool.and_eq_true,
    decide_eq_true_eq, decide_eq_true_eq, beq_iff_eq]
  constructor
  · rintro (less | ⟨same, rest⟩)
    · exact Or.inl less
    · exact Or.inr ⟨congrArg TechnologyChangeKind.asStr same, rest⟩
  · rintro (less | ⟨same, rest⟩)
    · exact Or.inl less
    · exact Or.inr ⟨asStr_injective same, rest⟩

instance : IsTrans TechnologyChange fun left right => left.le right = true where
  trans _ _ _ := by
    simp only [TechnologyChange.le_iff]
    exact le_trans

instance : Std.Total fun left right : TechnologyChange => left.le right = true where
  total _ _ := by
    simp only [TechnologyChange.le_iff]
    exact le_total _ _

instance : IsTrans CurrentTechnology fun left right =>
    left.technologySlug.1 ≤ right.technologySlug.1 where
  trans _ _ _ := le_trans

instance : Std.Total fun left right : CurrentTechnology =>
    left.technologySlug.1 ≤ right.technologySlug.1 where
  total _ _ := le_total _ _

theorem eq_of_filterMap_nodup {f : TechnologyChange → Option TechnologySlug}
    {changes : List TechnologyChange} (once : (changes.filterMap f).Nodup)
    {left right : TechnologyChange} (inLeft : left ∈ changes) (inRight : right ∈ changes)
    {slug : TechnologySlug} (own : f left = some slug) (other : f right = some slug) :
    left = right := by
  by_contra different
  rw [List.Nodup, List.pairwise_filterMap] at once
  have symmetric : Std.Symm fun left right : TechnologyChange =>
      ∀ slug, f left = some slug → ∀ other, f right = some other → slug ≠ other :=
    ⟨fun _ _ apart slug own other found same => apart other found slug own same.symm⟩
  exact once.forall inLeft inRight different slug own slug other rfl

/-- No two changes of one kind have the same subject. -/
theorem eq_of_subjectText (gainedOnce : (gained.map CurrentTechnology.technologySlug).Nodup)
    (lostOnce : (lost.map CurrentTechnology.technologySlug).Nodup) {left right : TechnologyChange}
    (inLeft : left ∈ unsortedChanges gained lost) (inRight : right ∈ unsortedChanges gained lost)
    (kinds : left.kind = right.kind) (subjects : left.subjectText = right.subjectText) :
    left = right := by
  have byTarget : ∀ first second : CurrentTechnology, left.target = some first →
      right.target = some second → left = right := by
    intro first second own other
    rw [TechnologyChange.subjectText, TechnologyChange.subjectText, own, other] at subjects
    have slugs : first.technologySlug = second.technologySlug := Subtype.ext subjects
    have once := migratedTargets_nodup lost gainedOnce
    exact eq_of_filterMap_nodup once inLeft inRight (by rw [own]; rfl) (by rw [other, slugs]; rfl)
  rcases mem_unsortedChanges inLeft with ⟨addition, _, removal, _, rfl⟩ | ⟨addition, _, rfl⟩ |
    ⟨removal, _, rfl⟩
  · rcases mem_unsortedChanges inRight with ⟨other, _, _, _, rfl⟩ | ⟨_, _, rfl⟩ | ⟨_, _, rfl⟩
    · exact byTarget addition other rfl rfl
    · cases kinds
    · cases kinds
  · rcases mem_unsortedChanges inRight with ⟨_, _, _, _, rfl⟩ | ⟨other, _, rfl⟩ | ⟨_, _, rfl⟩
    · cases kinds
    · exact byTarget addition other rfl rfl
    · cases kinds
  · rcases mem_unsortedChanges inRight with ⟨_, _, _, _, rfl⟩ | ⟨_, _, rfl⟩ | ⟨other, _, rfl⟩
    · cases kinds
    · cases kinds
    · have slugs : removal.technologySlug = other.technologySlug := Subtype.ext subjects
      have once := migratedSources_nodup gainedOnce lostOnce
      exact eq_of_filterMap_nodup once inLeft inRight rfl (by rw [slugs]; rfl)

theorem sortedBySlug_perm {states states' : List CurrentTechnology}
    (permuted : states'.Perm states)
    (distinct : (states.map CurrentTechnology.technologySlug).Nodup) :
    sortedBySlug states' = sortedBySlug states := by
  rw [sortedBySlug, sortedBySlug, insertionSort_perm permuted]
  intro left inLeft right inRight forth back
  rw [permuted.mem_iff] at inLeft inRight
  exact eq_of_key_eq distinct inLeft inRight (Subtype.ext (le_antisymm forth back))

/-- The order in which technologies and observations are given does not matter. -/
theorem deriveProjection_perm {previous previous' : List CurrentTechnology}
    {observations observations' : List RuleObservation}
    (distinct : (observations.map RuleObservation.technologySlug).Nodup)
    (states : previous'.Perm previous) (permuted : observations'.Perm observations) :
    deriveProjection previous' observations' = deriveProjection previous observations := by
  have current : wasCurrent previous' = wasCurrent previous := by
    funext slug
    rw [Bool.eq_iff_iff, wasCurrent_eq_true, wasCurrent_eq_true]
    simp only [states.mem_iff]
  have observed : ∀ status, (observedAs observations' status).Perm
      (observedAs observations status) := fun status => (permuted.filter _).map _
  have gains : (additions previous' observations').Perm (additions previous observations) := by
    rw [additions, current]
    exact (observed .detected).filter _
  have losses : (removals previous' observations').Perm (removals previous observations) := by
    rw [removals, current]
    exact (observed .confirmedAbsent).filter _
  have detectedOnce : ((observedAs observations .detected).map
      CurrentTechnology.technologySlug).Nodup := by
    rw [observedAs, List.map_map]
    exact distinct.sublist (List.filter_sublist.map _)
  have gainedOnce : ((additions previous observations).map CurrentTechnology.technologySlug).Nodup :=
    observedAs_slugs_nodup distinct
  have lostOnce : ((removals previous observations).map CurrentTechnology.technologySlug).Nodup :=
    observedAs_slugs_nodup distinct
  unfold deriveProjection
  rw [sortedBySlug_perm (observed .detected) detectedOnce, sortedBySlug_perm losses lostOnce]
  have changes := unsortedChanges_perm gains losses
  rw [insertionSort_perm changes]
  intro left inLeft right inRight forth back
  rw [changes.mem_iff] at inLeft inRight
  rw [TechnologyChange.le_iff] at forth back
  have same := le_antisymm forth back
  simp only [EmbeddingLike.apply_eq_iff_eq, Prod.mk.injEq] at same
  exact eq_of_subjectText gainedOnce lostOnce inLeft inRight (asStr_injective same.1) same.2

end Order

section Exact

/-- `derive_projection` is the step of the set of technologies, told by a change
log without loss and without repetition, whatever the order of its inputs. -/
theorem deriveProjection_exact (previous : List CurrentTechnology)
    (observations : List RuleObservation)
    (distinct : (observations.map RuleObservation.technologySlug).Nodup) :
    let transition := deriveProjection previous observations
    let gained := additions previous observations
    let lost := removals previous observations
    (slugsOf previous \ slugsOf transition.deactivate) ∪ slugsOf transition.activate =
        nextTechnologies previous observations ∧
    replay (slugsOf previous) (transition.changes.map TechnologyChange.delta) =
        nextTechnologies previous observations ∧
    (∀ slug, transition.changes.countP (TechnologyChange.mentions slug) =
      if slug ∈ slugsOf previous ↔ slug ∈ nextTechnologies previous observations then 0 else 1) ∧
    (∀ category, ((∃ change ∈ transition.changes, change.kind = .migrated ∧
        change.isIn category) ↔ IsExchange gained lost category) ∧
      (IsExchange gained lost category → ∀ change ∈ transition.changes,
        change.isIn category → change.kind = .migrated)) ∧
    (∀ observation ∈ observations, observation.status = .unknown →
      observation.technologySlug ∉ slugsOf transition.deactivate ∧
      ∀ change ∈ transition.changes, change.delta.removed ≠ some observation.technologySlug) ∧
    ∀ previous' observations', previous'.Perm previous → observations'.Perm observations →
      deriveProjection previous' observations' = transition := by
  dsimp only
  refine ⟨deriveProjection_step, replay_changes distinct, countP_mentions distinct, ?_, ?_, ?_⟩
  · intro category
    constructor
    · rw [← exists_migrated_iff]
      simp only [mem_changes]
    · intro exchange change member
      exact migrated_of_isExchange exchange (mem_changes.mp member)
  · intro observation member isUnknown
    have kept : observation.technologySlug ∉ slugsOf (removals previous observations) := by
      rw [mem_slugsOf_removals, mem_slugsOf]
      rintro ⟨⟨state, absent, same⟩, _⟩
      obtain ⟨other, inObservations, isAbsent, rfl⟩ := mem_observedAs.mp absent
      rw [eq_of_key_eq distinct inObservations member same, isUnknown] at isAbsent
      cases isAbsent
    refine ⟨?_, ?_⟩
    · rw [slugsOf_deactivate]
      exact kept
    · intro change inChanges removed
      exact kept ((exists_removed_iff _).mp ⟨change, mem_changes.mp inChanges, removed⟩)
  · intro previous' observations' states permuted
    exact deriveProjection_perm distinct states permuted

theorem nextjs_isSlug : isSlug "nextjs".toList = true := by decide

theorem remix_isSlug : isSlug "remix".toList = true := by decide

theorem framework_isSlug : isSlug "framework".toList = true := by decide

theorem one_isRuleVersion : 0 < 1 ∧ 1 < 2 ^ 16 := by decide

def nextjsState : CurrentTechnology :=
  ⟨⟨"nextjs".toList, nextjs_isSlug⟩, ⟨"framework".toList, framework_isSlug⟩⟩

/-- One framework is gone and another one is there. -/
def migrationObservations : List RuleObservation :=
  [⟨⟨"nextjs".toList, nextjs_isSlug⟩, ⟨"framework".toList, framework_isSlug⟩,
      ⟨"nextjs".toList, nextjs_isSlug⟩, ⟨1, one_isRuleVersion⟩, .confirmedAbsent⟩,
    ⟨⟨"remix".toList, remix_isSlug⟩, ⟨"framework".toList, framework_isSlug⟩,
      ⟨"remix".toList, remix_isSlug⟩, ⟨1, one_isRuleVersion⟩, .detected⟩]

theorem deriveProjection_exact_migration :
    replay (slugsOf [nextjsState])
        ((deriveProjection [nextjsState] migrationObservations).changes.map
          TechnologyChange.delta) = nextTechnologies [nextjsState] migrationObservations ∧
      ((∃ change ∈ (deriveProjection [nextjsState] migrationObservations).changes,
          change.kind = .migrated ∧ change.isIn ⟨"framework".toList, framework_isSlug⟩) ↔
        IsExchange (additions [nextjsState] migrationObservations)
          (removals [nextjsState] migrationObservations)
          ⟨"framework".toList, framework_isSlug⟩) := by
  have exact := deriveProjection_exact [nextjsState] migrationObservations (by decide +kernel)
  exact ⟨exact.2.1, (exact.2.2.2.1 _).1⟩

end Exact

end TechAtlas
