import TechAtlas.Rules.Activation

set_option autoImplicit false

/- A rule as the operators read it, statement by statement, while others work on it. -/
namespace TechAtlas.Rules

open Library TechAtlas.Detector TechAtlas.Store

section Views

structure AdminDetectionRuleVersion where
  version : Nat
  definition : Json
  publishedAt : Time
  isActive : Bool
  deriving DecidableEq

structure AdminDetectionRule where
  ruleSlug : Text
  technologySlug : Text
  technologyName : Text
  activeVersion : Option Nat
  draftDefinition : Option Json
  draftUpdatedAt : Option Time
  versions : List AdminDetectionRuleVersion

/-- `ORDER BY version DESC`. -/
def Catalogue.versionsOf (catalogue : Catalogue) (ruleId : Uuid) : List (Uuid × VersionRow) :=
  (catalogue.versionRows.filter fun row => row.2.ruleId == ruleId).insertionSort fun left right =>
    right.2.version ≤ left.2.version

def adminVersion (active : Option Uuid) (row : Uuid × VersionRow) : AdminDetectionRuleVersion where
  version := row.2.version
  definition := row.2.definition
  publishedAt := row.2.publishedAt
  isActive := some row.1 == active

/-- `rule_by_slug` reads the rule, its draft and its versions in a statement each, with no
transaction around them: each statement sees the catalogue of its own time. -/
def ruleBySlug (first second third : Catalogue) (ruleSlug : Text) :
    Except AdminOperationError AdminDetectionRule := do
  let rule ← orError (first.desk.tables.ruleBySlug ruleSlug) .notFound
  let technology ← orError
    (first.technologies.find? fun row => row.id == rule.technologyId) .notFound
  let draft := second.desk.tables.drafts.find? fun draft => draft.ruleId == rule.id
  let versions := (third.versionsOf rule.id).map (adminVersion (first.activeVersionId rule.id))
  .ok {
    ruleSlug := rule.slug
    technologySlug := technology.slug
    technologyName := technology.displayName
    activeVersion := (versions.find? fun version => version.isActive).map
      AdminDetectionRuleVersion.version
    draftDefinition := draft.map DraftRow.definition
    draftUpdatedAt := draft.map DraftRow.updatedAt
    versions := versions }

end Views

section Reading

variable {jsons : JsonCrate} {regexes : RegexCrate} {ruleSlug : Text}
  {catalogue first second third : Catalogue}

theorem mem_versionsOf {ruleId : Uuid} {row : Uuid × VersionRow} :
    row ∈ catalogue.versionsOf ruleId ↔ row ∈ catalogue.versionRows ∧ row.2.ruleId = ruleId := by
  unfold Catalogue.versionsOf
  rw [List.mem_insertionSort, List.mem_filter, beq_iff_eq]

/-- The versions of a rule, the highest first, each number once. -/
theorem versionsOf_decreasing (sound : catalogue.Sound) (ruleId : Uuid) :
    ((catalogue.versionsOf ruleId).map fun row => row.2.version).Pairwise (· > ·) := by
  have sorted : (catalogue.versionsOf ruleId).Pairwise fun left right =>
      right.2.version ≤ left.2.version := by
    have total : Std.Total fun left right : Uuid × VersionRow =>
        right.2.version ≤ left.2.version := ⟨fun left right => le_total _ _⟩
    have trans : IsTrans (Uuid × VersionRow) fun left right =>
        right.2.version ≤ left.2.version := ⟨fun _ _ _ first second => le_trans second first⟩
    exact List.pairwise_insertionSort _ _
  have rows : (catalogue.versionRows.map fun row => (row.2.ruleId, row.2.version)).Nodup := by
    have numbered := sound.numbered
    rw [← sound.map_snd, List.map_map] at numbered
    exact numbered
  have distinct : (catalogue.versionsOf ruleId).Pairwise fun left right =>
      left.2.version ≠ right.2.version := by
    have perm : (catalogue.versionsOf ruleId).Perm
        (catalogue.versionRows.filter fun row => row.2.ruleId == ruleId) :=
      List.perm_insertionSort _ _
    have keys := (perm.map fun row => (row.2.ruleId, row.2.version)).nodup_iff.mpr
      ((List.filter_sublist.map _).nodup rows)
    refine (List.pairwise_map.mp keys).imp_of_mem ?_
    intro left right inLeft inRight differ same
    apply differ
    rw [(mem_versionsOf.mp inLeft).2, (mem_versionsOf.mp inRight).2, same]
  rw [List.pairwise_map]
  refine (sorted.and distinct).imp ?_
  intro left right both
  exact lt_of_le_of_ne both.1 (Ne.symm both.2)

theorem Catalogue.Later.ruleBySlug (later : first.Later third) (ruleSlug : Text) :
    third.desk.tables.ruleBySlug ruleSlug = first.desk.tables.ruleBySlug ruleSlug := by
  unfold RuleTables.ruleBySlug
  rw [later.rules]

theorem published_eq_some (sound : catalogue.Sound) {rule : RuleRow} {version : Nat}
    {definition : Json} (named : catalogue.desk.tables.ruleBySlug ruleSlug = some rule) :
    catalogue.published ruleSlug version = some definition ↔
      ∃ row ∈ catalogue.versionsOf rule.id, row.2.version = version ∧
        row.2.definition = definition := by
  unfold Catalogue.published
  rw [named]
  change Option.bind (catalogue.versionRows.find? _) _ = _ ↔ _
  rw [Option.bind_eq_some_iff]
  constructor
  · intro found
    obtain ⟨row, found, same⟩ := found
    obtain ⟨member, key⟩ := sound.find_number.mp found
    obtain ⟨ofRule, number⟩ := Prod.mk.inj key
    exact ⟨row, mem_versionsOf.mpr ⟨member, ofRule⟩, number, Option.some.inj same⟩
  · intro listed
    obtain ⟨row, member, number, same⟩ := listed
    obtain ⟨inRows, ofRule⟩ := mem_versionsOf.mp member
    exact ⟨row, sound.find_number.mpr ⟨inRows, Prod.ext ofRule number⟩, congrArg some same⟩

/-- The rows of the version in force, among the versions read later. -/
theorem active_versions (sound : first.Sound) (lastSound : third.Sound)
    (later : first.Later third) {rule : RuleRow}
    (named : first.desk.tables.ruleBySlug ruleSlug = some rule) :
    (((third.versionsOf rule.id).map (adminVersion (first.activeVersionId rule.id))).filter
      fun version => version.isActive).map (fun version => (version.version, version.definition)) =
        (first.active ruleSlug).toList := by
  have chosen : (((third.versionsOf rule.id).map
      (adminVersion (first.activeVersionId rule.id))).filter fun version => version.isActive) =
        ((third.versionsOf rule.id).filter fun row =>
          some row.1 == first.activeVersionId rule.id).map
            (adminVersion (first.activeVersionId rule.id)) := by
    rw [List.filter_map]
    rfl
  rw [chosen, List.map_map]
  unfold Catalogue.active
  rw [named]
  change _ = (Option.bind (first.activeVersionId rule.id) _).toList
  cases selected : first.activeVersionId rule.id with
  | none =>
      have none : ((third.versionsOf rule.id).filter fun row =>
          some row.1 == (Option.none : Option Uuid)) = [] := by
        rw [List.filter_eq_nil_iff]
        exact fun row _ absent => nomatch (beq_iff_eq.mp absent)
      rw [none]
      rfl
  | some id =>
      obtain ⟨row, member, ofRule⟩ := sound.active rule.id id selected
      have inThird := later.versions.subset member
      have unique : ((third.versionsOf rule.id).map Prod.fst).Nodup := by
        have perm : (third.versionsOf rule.id).Perm
            (third.versionRows.filter fun row => row.2.ruleId == rule.id) :=
          List.perm_insertionSort _ _
        have ids : (third.versionRows.map Prod.fst).Nodup := by
          rw [lastSound.map_fst]
          exact lastSound.ids
        exact (perm.map Prod.fst).nodup_iff.mpr ((List.filter_sublist.map _).nodup ids)
      have single : ((third.versionsOf rule.id).filter fun other => some other.1 == some id) =
          [(id, row)] := by
        have same : (fun other : Uuid × VersionRow => some other.1 == some id) =
            fun other => other.1 == id := rfl
        rw [same, filter_key_eq_toList unique, (find?_key_eq_some unique).mpr
          ⟨mem_versionsOf.mpr ⟨inThird, ofRule⟩, rfl⟩]
        rfl
      rw [single]
      change _ = (Option.bind (first.versionRows.find? fun row => row.1 == id) _).toList
      rw [sound.find_id.mpr member]
      rfl

/-- An operator who reads a rule while others act sees the version that was in force at the
first statement, marked once among all versions that are published by the last one. -/
theorem ruleBySlug_view (sound : first.Sound) (untilSecond untilThird : List Operation) :
    let second := first.after jsons regexes untilSecond
    let third := second.after jsons regexes untilThird
    ∀ view, ruleBySlug first second third ruleSlug = .ok view →
      view.activeVersion = (first.active ruleSlug).map Prod.fst ∧
      ((view.versions.filter fun version => version.isActive).map fun version =>
        (version.version, version.definition)) = (first.active ruleSlug).toList ∧
      (view.versions.map AdminDetectionRuleVersion.version).Pairwise (· > ·) ∧
      ∀ number definition, third.published ruleSlug number = some definition ↔
        ∃ version ∈ view.versions, version.version = number ∧ version.definition = definition := by
  intro second third view success
  have toSecond : second.Sound ∧ first.Later second := after_later sound untilSecond
  have toThird : third.Sound ∧ second.Later third := after_later toSecond.1 untilThird
  have later := toSecond.2.trans toThird.2
  obtain ⟨rule, named, success⟩ := bind_eq_ok.mp success
  obtain ⟨technology, _, success⟩ := bind_eq_ok.mp success
  cases success
  have named := orError_eq_ok.mp named
  have active := active_versions sound toThird.1 later named
  refine ⟨?_, active, ?_, ?_⟩
  · have first := congrArg (fun rows => rows.head?.map Prod.fst) active
    rw [List.head?_map, List.head?_filter, Option.map_map, Option.head?_toList] at first
    exact first
  · rw [List.map_map]
    exact versionsOf_decreasing toThird.1 rule.id
  · intro number definition
    have lastNamed := (later.ruleBySlug ruleSlug).trans named
    rw [published_eq_some toThird.1 lastNamed]
    constructor
    · intro listed
      obtain ⟨row, member, same, own⟩ := listed
      exact ⟨_, List.mem_map_of_mem member, same, own⟩
    · intro listed
      obtain ⟨version, member, same, own⟩ := listed
      obtain ⟨row, inRows, rfl⟩ := List.mem_map.mp member
      exact ⟨row, inRows, same, own⟩

/-- The version that is not in force is listed too. -/
theorem rolledBack_view : ∃ view, ruleBySlug nginxCatalogue nginxCatalogue
      (nginxCatalogue.after payloadJsons noRegexes rolledBack) "nginx".toList = .ok view ∧
    view.activeVersion = some 1 ∧ view.versions.map AdminDetectionRuleVersion.version = [2, 1] := by
  have read : (ruleBySlug nginxCatalogue nginxCatalogue
      (nginxCatalogue.after payloadJsons noRegexes rolledBack) "nginx".toList).toOption.map
        (fun view => view.versions.map AdminDetectionRuleVersion.version) = some [2, 1] := by
    decide +kernel
  obtain ⟨view, found, numbers⟩ := Option.map_eq_some_iff.mp read
  have success := toOption_eq_some.mp found
  have seen := @ruleBySlug_view payloadJsons noRegexes _ _ nginxCatalogue_sound [] rolledBack view
    success
  refine ⟨view, success, ?_, numbers⟩
  rw [seen.1]
  decide +kernel

end Reading

section Publishing

variable {jsons : JsonCrate} {regexes : RegexCrate} {catalogue : Catalogue}

theorem step_rows (catalogue : Catalogue) (operation : Operation) :
    (catalogue.step jsons regexes operation).versionRows = catalogue.versionRows := by
  cases operation with
  | request action => exact request_rows catalogue action
  | setActiveVersion ruleSlug version actorSubject =>
      unfold Catalogue.step
      dsimp only
      split
      next => rfl
      next after success =>
        obtain ⟨_, _, _, _, _, _, _, versions, ids, _⟩ := setActiveVersion_eq_ok success
        unfold Catalogue.versionRows
        rw [versions, ids]

/-- The versions of the rules stay the ones that were there. A publication answers that there
is no tested draft or that the service is unavailable, and leaves everything as it is. -/
theorem publications_refused (jsons : JsonCrate) (regexes : RegexCrate) (catalogue : Catalogue)
    (operations : List Operation) (ruleSlug actorSubject : Text) (now : Time) :
    let after := catalogue.after jsons regexes operations
    after.versionRows = catalogue.versionRows ∧
      publishDraft after.desk.tables ruleSlug actorSubject now = .error
        (if ((after.desk.tables.ruleBySlug ruleSlug).bind fun rule =>
          after.desk.tables.testedDraft rule.id).isSome then .unavailable else .notFound) ∧
      after.step jsons regexes (.request (.publishRuleDraft ruleSlug actorSubject now)) =
        after := by
  intro after
  refine ⟨?_, publishDraft_refused _ ruleSlug actorSubject now, ?_⟩
  · exact run_invariant (P := fun later => later.versionRows = catalogue.versionRows)
      (fun later operation same => (step_rows later operation).trans same) catalogue operations rfl
  · rw [request_step, step_publish]

/-- A draft has been tested, and its publication fails. -/
example :
    let tested := nginxCatalogue.after payloadJsons noRegexes (testedDraft.map .request)
    (tested.desk.tables.testedDraft 1).isSome = true ∧
      (match publishDraft tested.desk.tables "nginx".toList "operator".toList 3 with
      | .ok _ => none
      | .error reason => some reason) = some .unavailable :=
  ⟨by decide +kernel, by decide +kernel⟩

end Publishing

end TechAtlas.Rules
