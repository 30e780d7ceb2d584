import TechAtlas.Rules.Definition
import TechAtlas.Store.Admin

set_option autoImplicit false

/- The draft of a rule between the requests of several operators. Saving and
publishing are transactions, of which the second always fails; a test reads the draft
in one statement, evaluates it, and marks whatever draft the rule then has in another. -/
namespace TechAtlas.Rules

open Library TechAtlas.Detector TechAtlas.Store

section Tables

structure DraftRow where
  ruleId : Uuid
  definition : Json
  updatedBy : Text
  updatedAt : Time
  testedAt : Option Time

structure VersionRow where
  ruleId : Uuid
  version : Nat
  definition : Json
  publishedAt : Time

structure RuleTables where
  rules : List RuleRow
  drafts : List DraftRow
  versions : List VersionRow
  auditEvents : List AuditEvent

def RuleTables.ruleBySlug (tables : RuleTables) (ruleSlug : Text) : Option RuleRow :=
  tables.rules.find? fun rule => rule.slug == ruleSlug

/-- `admin_audit_events` rejects a blank actor. -/
def RuleTables.audit (tables : RuleTables) (actorSubject : Text) (action : String)
    (ruleId : Uuid) : Option RuleTables :=
  if (btrim actorSubject).isEmpty then none
  else some { tables with
    auditEvents := tables.auditEvents ++ [{
      actorSubject := actorSubject
      action := action
      resourceKind := "detection_rule"
      resourceId := ruleId }] }

def DraftRow.savedWith (definition : Json) (actorSubject : Text) (now : Time) (draft : DraftRow) :
    DraftRow :=
  { draft with
    definition := definition
    updatedBy := actorSubject
    updatedAt := now
    testedAt := none }

/-- `INSERT ... ON CONFLICT (detection_rule_id) DO UPDATE`, under the checks of
the table. -/
def RuleTables.upsertDraft (tables : RuleTables) (ruleId : Uuid) (definition : Json)
    (actorSubject : Text) (now : Time) : Option RuleTables :=
  if definition.asObject.isNone || (btrim actorSubject).isEmpty then none
  else if tables.drafts.any fun draft => draft.ruleId == ruleId then
    some { tables with
      drafts := updateWhere (fun draft => draft.ruleId == ruleId)
        (DraftRow.savedWith definition actorSubject now) tables.drafts }
  else
    some { tables with
      drafts := tables.drafts ++ [{
        ruleId := ruleId
        definition := definition
        updatedBy := actorSubject
        updatedAt := now
        testedAt := none }] }

def saveDraft (tables : RuleTables) (ruleSlug : Text) (definition : Json) (actorSubject : Text)
    (now : Time) : Except AdminOperationError RuleTables := do
  let rule ← orError (tables.ruleBySlug ruleSlug) .notFound
  let tables ← orError (tables.upsertDraft rule.id definition actorSubject now) .unavailable
  orError (tables.audit actorSubject "detection_rule.draft_saved" rule.id) .unavailable

/-- An integer that a query returns, with the type PostgreSQL gives its column. -/
inductive SqlInteger
  | int2 (value : Nat)
  | int4 (value : Nat)
  deriving DecidableEq

/-- `sqlx` decodes an `i16` from an `int2` alone, whatever the value of another column. -/
def SqlInteger.decodeI16 : SqlInteger → Option Nat
  | .int2 value => some value
  | .int4 _ => none

/-- `COALESCE(MAX(version), 0) + 1`: `MAX` has the type of its `int2` column, and the
literals make an `int4` of the sum. -/
def RuleTables.nextVersion (tables : RuleTables) (ruleId : Uuid) : SqlInteger :=
  .int4 ((((tables.versions.filter fun row => row.ruleId == ruleId).map
    VersionRow.version).foldl max 0) + 1)

/-- The draft that a publication selects: one with `tested_at` set. -/
def RuleTables.testedDraft (tables : RuleTables) (ruleId : Uuid) : Option DraftRow :=
  tables.drafts.find? fun draft => draft.ruleId == ruleId && draft.testedAt.isSome

/-- The version number is read as an `i16`. -/
def publishDraft (tables : RuleTables) (ruleSlug actorSubject : Text) (now : Time) :
    Except AdminOperationError RuleTables := do
  let rule ← orError (tables.ruleBySlug ruleSlug) .notFound
  let draft ← orError (tables.testedDraft rule.id) .notFound
  let version ← orError (tables.nextVersion rule.id).decodeI16 .unavailable
  require draft.definition.asObject.isSome .unavailable
  let tables : RuleTables := { tables with
    versions := tables.versions ++ [{
      ruleId := rule.id
      version := version
      definition := draft.definition
      publishedAt := now }]
    drafts := tables.drafts.filter fun draft => draft.ruleId != rule.id }
  orError (tables.audit actorSubject "detection_rule.published" rule.id) .unavailable

def DraftRow.testedAtTime (now : Time) (draft : DraftRow) : DraftRow :=
  { draft with testedAt := some now }

/-- The update stands even where the audit event that follows it is refused. -/
def markDraftTested (tables : RuleTables) (ruleSlug actorSubject : Text) (now : Time) :
    RuleTables :=
  match tables.ruleBySlug ruleSlug with
  | none => tables
  | some rule =>
      if tables.drafts.any fun draft => draft.ruleId == rule.id then
        let marked := { tables with
          drafts := updateWhere (fun draft => draft.ruleId == rule.id)
            (DraftRow.testedAtTime now) tables.drafts }
        (marked.audit actorSubject "detection_rule.draft_tested" rule.id).getD marked
      else tables

end Tables

section Requests

/-- A `test_rule_draft` request that has read its draft. -/
structure TestRequest where
  ruleSlug : Text
  actorSubject : Text
  signals : List RuleFixtureSignal
  definition : Json

/-- The requests between their statements, and every evaluation made so far. -/
structure Desk where
  tables : RuleTables
  reading : List TestRequest
  passing : List TestRequest
  evaluated : List TestRequest

inductive Action
  | saveRuleDraft (ruleSlug payload actorSubject : Text) (now : Time)
  | readDraft (ruleSlug actorSubject : Text) (signals : List RuleFixtureSignal)
  | evaluate (place : Nat)
  | markTested (place : Nat) (now : Time)
  | publishRuleDraft (ruleSlug actorSubject : Text) (now : Time)

variable (jsons : JsonCrate) (regexes : RegexCrate)

/-- What `test_rule_draft` reads: the draft of the rule, unless the request or
the rule is refused. -/
def readDraft (tables : RuleTables) (ruleSlug : Text) (signals : List RuleFixtureSignal) :
    Except AdminApiError Json := do
  require (decide (signals.length ≤ 128)) .validation
  let rule ← orError (tables.ruleBySlug ruleSlug) .notFound
  let draft ← orError (tables.drafts.find? fun draft => draft.ruleId == rule.id) .conflict
  .ok draft.definition

/-- The fixture reaches the threshold. -/
def passes (definition : Json) (signals : List RuleFixtureSignal) : Bool :=
  match evaluateRuleFixture regexes definition signals with
  | .ok (confidence, threshold) => decide (threshold ≤ confidence)
  | .error _ => false

def step (desk : Desk) : Action → Desk
  | .saveRuleDraft ruleSlug payload actorSubject now =>
      match parseRuleDefinition jsons regexes payload with
      | .error _ => desk
      | .ok definition =>
          match saveDraft desk.tables ruleSlug definition actorSubject now with
          | .error _ => desk
          | .ok tables => { desk with tables := tables }
  | .readDraft ruleSlug actorSubject signals =>
      match readDraft desk.tables ruleSlug signals with
      | .error _ => desk
      | .ok definition =>
          { desk with
            reading := desk.reading ++ [{
              ruleSlug := ruleSlug
              actorSubject := actorSubject
              signals := signals
              definition := definition }] }
  | .evaluate place =>
      match desk.reading[place]? with
      | none => desk
      | some request =>
          { desk with
            reading := desk.reading.eraseIdx place
            passing :=
              if passes regexes request.definition request.signals then desk.passing ++ [request]
              else desk.passing
            evaluated := desk.evaluated ++ [request] }
  | .markTested place now =>
      match desk.passing[place]? with
      | none => desk
      | some request =>
          { desk with
            tables := markDraftTested desk.tables request.ruleSlug request.actorSubject now
            passing := desk.passing.eraseIdx place }
  | .publishRuleDraft ruleSlug actorSubject now =>
      match publishDraft desk.tables ruleSlug actorSubject now with
      | .error _ => desk
      | .ok tables => { desk with tables := tables }

/-- The rules and versions the migrations seed, and no draft. -/
def Desk.seeded (rules : List RuleRow) (versions : List VersionRow) : Desk where
  tables := { rules := rules, drafts := [], versions := versions, auditEvents := [] }
  reading := []
  passing := []
  evaluated := []

end Requests

section Statements

variable {tables next : RuleTables} {ruleSlug actorSubject : Text} {now : Time}

theorem audit_eq_some {action : String} {ruleId : Uuid}
    (success : tables.audit actorSubject action ruleId = some next) :
    next.drafts = tables.drafts ∧ next.versions = tables.versions := by
  unfold RuleTables.audit at success
  split at success
  · cases success
  · rw [← Option.some.inj success]
    exact ⟨rfl, rfl⟩

theorem audit_getD (tables : RuleTables) (actorSubject : Text) (action : String) (ruleId : Uuid) :
    ((tables.audit actorSubject action ruleId).getD tables).drafts = tables.drafts ∧
      ((tables.audit actorSubject action ruleId).getD tables).versions = tables.versions := by
  unfold RuleTables.audit
  split <;> exact ⟨rfl, rfl⟩

/-- A saved draft is untested; the others stay. -/
theorem saveDraft_eq_ok {definition : Json}
    (success : saveDraft tables ruleSlug definition actorSubject now = .ok next) :
    next.versions = tables.versions ∧
      ∀ draft ∈ next.drafts, draft ∈ tables.drafts ∨ draft.testedAt = none := by
  simp only [saveDraft, bind_eq_ok, orError_eq_ok] at success
  obtain ⟨rule, _, saved, upserted, audited⟩ := success
  obtain ⟨drafts, versions⟩ := audit_eq_some audited
  rw [drafts, versions]
  unfold RuleTables.upsertDraft at upserted
  split at upserted
  · cases upserted
  · split at upserted
    · rw [← Option.some.inj upserted]
      refine ⟨rfl, ?_⟩
      intro draft member
      rcases mem_updateWhere_cases member with ⟨old, _⟩ | ⟨old, _, _, rfl⟩
      · exact Or.inl old
      · exact Or.inr rfl
    · rw [← Option.some.inj upserted]
      refine ⟨rfl, ?_⟩
      intro draft member
      rcases List.mem_append.mp member with old | new
      · exact Or.inl old
      · rw [List.mem_singleton.mp new]
        exact Or.inr rfl

/-- No publication gets past the number of its version. -/
theorem publishDraft_refused (tables : RuleTables) (ruleSlug actorSubject : Text) (now : Time) :
    publishDraft tables ruleSlug actorSubject now = .error
      (if ((tables.ruleBySlug ruleSlug).bind fun rule => tables.testedDraft rule.id).isSome then
        .unavailable
      else .notFound) := by
  unfold publishDraft
  cases tables.ruleBySlug ruleSlug with
  | none => rfl
  | some rule =>
      change (orError (tables.testedDraft rule.id) AdminOperationError.notFound >>= _) =
        .error (if (tables.testedDraft rule.id).isSome then _ else _)
      cases tables.testedDraft rule.id with
      | none => rfl
      | some draft => rfl

/-- The mark falls on the draft the rule has by then. -/
theorem mem_markDraftTested {draft : DraftRow}
    (member : draft ∈ (markDraftTested tables ruleSlug actorSubject now).drafts) :
    draft ∈ tables.drafts ∨ ∃ rule, tables.ruleBySlug ruleSlug = some rule ∧
      ∃ old ∈ tables.drafts, old.ruleId = rule.id ∧ draft = old.testedAtTime now := by
  unfold markDraftTested at member
  split at member
  · exact Or.inl member
  · rename_i rule found
    split at member
    · rw [(audit_getD _ _ _ _).1] at member
      rcases mem_updateWhere_cases member with ⟨old, _⟩ | ⟨old, inDrafts, selected, rfl⟩
      · exact Or.inl old
      · exact Or.inr ⟨rule, found, old, inDrafts, beq_iff_eq.mp selected, rfl⟩
    · exact Or.inl member

theorem markDraftTested_versions :
    (markDraftTested tables ruleSlug actorSubject now).versions = tables.versions := by
  unfold markDraftTested
  split
  · rfl
  · split
    · exact (audit_getD _ _ _ _).2
    · rfl

end Statements

section Runs

variable (jsons : JsonCrate) (regexes : RegexCrate)

/-- Some request evaluated this definition and reached its threshold. -/
def Passed (evaluated : List TestRequest) (definition : Json) : Prop :=
  ∃ request ∈ evaluated, request.definition = definition ∧
    passes regexes request.definition request.signals = true

/-- A request marks the draft that it has evaluated: nobody saved another one
in between. -/
def Undisturbed (desk : Desk) : Action → Prop
  | .markTested place _ => ∀ request ∈ desk.passing[place]?,
      ∀ rule ∈ desk.tables.ruleBySlug request.ruleSlug,
      ∀ draft ∈ desk.tables.drafts, draft.ruleId = rule.id →
        draft.definition = request.definition
  | _ => True

instance (desk : Desk) (action : Action) : Decidable (Undisturbed desk action) :=
  match action with
  | .markTested place _ => inferInstanceAs (Decidable (∀ request ∈ desk.passing[place]?,
      ∀ rule ∈ desk.tables.ruleBySlug request.ruleSlug,
      ∀ draft ∈ desk.tables.drafts, draft.ruleId = rule.id →
        draft.definition = request.definition))
  | .saveRuleDraft _ _ _ _ => isTrue trivial
  | .readDraft _ _ _ => isTrue trivial
  | .evaluate _ => isTrue trivial
  | .publishRuleDraft _ _ _ => isTrue trivial

structure Sound (desk : Desk) : Prop where
  marked : ∀ draft ∈ desk.tables.drafts, draft.testedAt.isSome = true →
    Passed regexes desk.evaluated draft.definition
  passing : ∀ request ∈ desk.passing, Passed regexes desk.evaluated request.definition

variable {regexes}

theorem Passed.later {evaluated : List TestRequest} {definition : Json} (request : TestRequest)
    (passed : Passed regexes evaluated definition) :
    Passed regexes (evaluated ++ [request]) definition := by
  obtain ⟨own, member, same, reached⟩ := passed
  exact ⟨own, List.mem_append_left _ member, same, reached⟩

theorem Sound.evaluate {desk : Desk} {request : TestRequest} (sound : Sound regexes desk)
    (place : Nat) :
    Sound regexes { desk with
      reading := desk.reading.eraseIdx place
      passing :=
        if passes regexes request.definition request.signals then desk.passing ++ [request]
        else desk.passing
      evaluated := desk.evaluated ++ [request] } := by
  refine ⟨?_, ?_⟩
  · intro draft member tested
    exact (sound.marked draft member tested).later request
  · intro other member
    dsimp only at member
    split at member
    · rename_i reached
      rcases List.mem_append.mp member with old | new
      · exact (sound.passing other old).later request
      · rw [List.mem_singleton.mp new]
        exact ⟨request, List.mem_append_right _ List.mem_cons_self, rfl, reached⟩
    · exact (sound.passing other member).later request

theorem step_publish (desk : Desk) (ruleSlug actorSubject : Text) (now : Time) :
    step jsons regexes desk (.publishRuleDraft ruleSlug actorSubject now) = desk := by
  unfold step
  dsimp only
  rw [publishDraft_refused]

theorem step_sound (desk : Desk) (action : Action) (undisturbed : Undisturbed desk action)
    (sound : Sound regexes desk) : Sound regexes (step jsons regexes desk action) := by
  cases action with
  | saveRuleDraft ruleSlug payload actorSubject now =>
      unfold step
      dsimp only
      split
      · exact sound
      · split
        · exact sound
        · rename_i next success
          obtain ⟨_, drafts⟩ := saveDraft_eq_ok success
          refine ⟨?_, sound.passing⟩
          intro draft member tested
          rcases drafts draft member with old | untested
          · exact sound.marked draft old tested
          · rw [untested] at tested
            cases tested
  | readDraft ruleSlug actorSubject signals =>
      unfold step
      dsimp only
      split
      · exact sound
      · exact ⟨sound.marked, sound.passing⟩
  | evaluate place =>
      unfold step
      dsimp only
      split
      · exact sound
      · exact sound.evaluate place
  | markTested place now =>
      unfold step
      dsimp only
      split
      · exact sound
      · rename_i request found
        have passed := sound.passing request (List.mem_of_getElem? found)
        refine ⟨?_, ?_⟩
        · intro draft member tested
          rcases mem_markDraftTested member with old | ⟨rule, named, old, inDrafts, same, rfl⟩
          · exact sound.marked draft old tested
          · have own := undisturbed request found rule named old inDrafts same
            rw [DraftRow.testedAtTime, own]
            exact passed
        · intro other member
          exact sound.passing other (List.mem_of_mem_eraseIdx member)
  | publishRuleDraft ruleSlug actorSubject now =>
      rw [step_publish]
      exact sound

theorem seeded_sound (rules : List RuleRow) (versions : List VersionRow) :
    Sound regexes (Desk.seeded rules versions) := by
  refine ⟨?_, ?_⟩
  · intro draft member
    cases member
  · intro request member
    cases member

/-- No request changes the published versions. -/
theorem step_versions (desk : Desk) (action : Action) :
    (step jsons regexes desk action).tables.versions = desk.tables.versions := by
  cases action with
  | saveRuleDraft ruleSlug payload actorSubject now =>
      unfold step
      dsimp only
      split
      · rfl
      · split
        · rfl
        · rename_i success
          exact (saveDraft_eq_ok success).1
  | readDraft ruleSlug actorSubject signals =>
      unfold step
      dsimp only
      split <;> rfl
  | evaluate place =>
      unfold step
      dsimp only
      split <;> rfl
  | markTested place now =>
      unfold step
      dsimp only
      split
      · rfl
      · exact markDraftTested_versions
  | publishRuleDraft ruleSlug actorSubject now =>
      rw [step_publish]

theorem run_versions (desk : Desk) (actions : List Action) :
    (run (step jsons regexes) desk actions).tables.versions = desk.tables.versions :=
  run_invariant (P := fun later => later.tables.versions = desk.tables.versions)
    (fun later action same => (step_versions jsons later action).trans same) desk actions rfl

theorem passes_eq_true {definition : Json} {signals : List RuleFixtureSignal}
    (reached : passes regexes definition signals = true) :
    ∃ confidence threshold, evaluateRuleFixture regexes definition signals =
      .ok (confidence, threshold) ∧ threshold ≤ confidence := by
  unfold passes at reached
  split at reached
  · rename_i confidence threshold evaluated
    exact ⟨confidence, threshold, evaluated, of_decide_eq_true reached⟩
  · cases reached

theorem Passed.outcome {evaluated : List TestRequest} {definition : Json}
    (passed : Passed regexes evaluated definition) :
    ∃ request ∈ evaluated, request.definition = definition ∧
      ∃ confidence threshold, evaluateRuleFixture regexes definition request.signals =
        .ok (confidence, threshold) ∧ threshold ≤ confidence := by
  obtain ⟨request, inEvaluated, same, reached⟩ := passed
  have outcome := passes_eq_true reached
  rw [same] at outcome
  exact ⟨request, inEvaluated, same, outcome⟩

/-- Whatever the interleaving, every version that is not a seeded one was tested: no
publication succeeds, and there is none. -/
theorem published_versions_were_tested (rules : List RuleRow) (seeds : List VersionRow)
    (actions : List Action) :
    let desk := run (step jsons regexes) (Desk.seeded rules seeds) actions
    ∀ version ∈ desk.tables.versions, version ∈ seeds ∨
      ∃ request ∈ desk.evaluated, request.definition = version.definition ∧
        ∃ confidence threshold,
          evaluateRuleFixture regexes version.definition request.signals =
            .ok (confidence, threshold) ∧ threshold ≤ confidence := by
  intro desk version member
  have same : desk.tables.versions = seeds :=
    run_versions jsons (Desk.seeded rules seeds) actions
  rw [same] at member
  exact Or.inl member

/-- If every request marks the draft it evaluated, then every draft that reads as tested
has a definition that some request evaluated and passed. -/
theorem tested_drafts_passed (rules : List RuleRow) (seeds : List VersionRow)
    (actions : List Action)
    (undisturbed : Guarded (step jsons regexes) Undisturbed (Desk.seeded rules seeds) actions) :
    let desk := run (step jsons regexes) (Desk.seeded rules seeds) actions
    ∀ draft ∈ desk.tables.drafts, draft.testedAt.isSome = true →
      ∃ request ∈ desk.evaluated, request.definition = draft.definition ∧
        ∃ confidence threshold,
          evaluateRuleFixture regexes draft.definition request.signals =
            .ok (confidence, threshold) ∧ threshold ≤ confidence := by
  intro desk draft member tested
  have sound := run_invariant_of_guarded (step_sound jsons) (Desk.seeded rules seeds) actions
    undisturbed (seeded_sound rules seeds)
  exact (sound.marked draft member tested).outcome

/-- A rule that needs a `server` header for its threshold. -/
def headerRule (threshold weight : Nat) : Json :=
  .object [
    ("threshold".toList, .number (.posInt threshold)),
    ("signals".toList, .array [.object [
      ("source".toList, .string "header".toList),
      ("key".toList, .string "server".toList),
      ("match".toList, .string "present".toList),
      ("weight".toList, .number (.posInt weight))]])]

def weighedPayload (weight : String) : Text :=
  ("\x7b\"threshold\":50,\"signals\":[\x7b\"source\":\"header\",\"key\":\"server\"," ++
    "\"match\":\"present\",\"weight\":" ++ weight ++ "\x7d]\x7d").toList

/-- `serde_json` on the two payloads. -/
def payloadJsons : JsonCrate where
  parse payload :=
    if payload = weighedPayload "60" then some (headerRule 50 60)
    else if payload = weighedPayload "10" then some (headerRule 50 10)
    else none

def noRegexes : RegexCrate where
  compile _ := none

def serverHeader : List RuleFixtureSignal :=
  [{ source := "header".toList, key := "server".toList, value := "nginx".toList }]

def nginxRules : List RuleRow := [{ id := 1, technologyId := 2, slug := "nginx".toList }]

def nginxVersion : VersionRow where
  ruleId := 1
  version := 1
  definition := headerRule 50 80
  publishedAt := 0

/-- Save and test, by one operator. -/
def testedDraft : List Action :=
  [.saveRuleDraft "nginx".toList (weighedPayload "60") "operator".toList 1,
    .readDraft "nginx".toList "operator".toList serverHeader,
    .evaluate 0,
    .markTested 0 2]

theorem testedDraft_passed :
    let desk := run (step payloadJsons noRegexes) (Desk.seeded nginxRules []) testedDraft
    desk.tables.drafts.map DraftRow.testedAt = [some 2] ∧
      ∀ draft ∈ desk.tables.drafts, draft.testedAt.isSome = true →
        ∃ request ∈ desk.evaluated, request.definition = draft.definition ∧
          ∃ confidence threshold,
            evaluateRuleFixture noRegexes draft.definition request.signals =
              .ok (confidence, threshold) ∧ threshold ≤ confidence :=
  ⟨by decide +kernel, tested_drafts_passed payloadJsons nginxRules [] testedDraft
    (by decide +kernel)⟩

/-- The tested draft is not published, and the version there was stays. -/
theorem testedDraft_unpublished :
    let desk := run (step payloadJsons noRegexes) (Desk.seeded nginxRules [nginxVersion])
      (testedDraft ++ [.publishRuleDraft "nginx".toList "operator".toList 3])
    desk.tables.drafts.length = 1 ∧
      (nginxVersion ∈ [nginxVersion] ∨
        ∃ request ∈ desk.evaluated, request.definition = nginxVersion.definition ∧
          ∃ confidence threshold,
            evaluateRuleFixture noRegexes nginxVersion.definition request.signals =
              .ok (confidence, threshold) ∧ threshold ≤ confidence) := by
  refine ⟨by decide +kernel, ?_⟩
  exact published_versions_were_tested payloadJsons nginxRules [nginxVersion] _ nginxVersion
    (by rw [run_versions]; exact List.mem_cons_self)

/-- Another operator saves a rule that cannot reach its threshold between the
test's evaluation and its mark, and that rule reads as tested. -/
def overtakenTest : List Action :=
  [.saveRuleDraft "nginx".toList (weighedPayload "60") "operator".toList 1,
    .readDraft "nginx".toList "operator".toList serverHeader,
    .evaluate 0,
    .saveRuleDraft "nginx".toList (weighedPayload "10") "colleague".toList 2,
    .markTested 0 3]

example :
    let desk := run (step payloadJsons noRegexes) (Desk.seeded nginxRules []) overtakenTest
    desk.tables.drafts.map (fun draft => (draft.definition, draft.testedAt)) =
        [(headerRule 50 10, some 3)] ∧
      ∀ request ∈ desk.evaluated, request.definition ≠ headerRule 50 10 :=
  ⟨by decide +kernel, by decide +kernel⟩

end Runs

end TechAtlas.Rules
