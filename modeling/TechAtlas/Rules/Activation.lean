import TechAtlas.Library.Join
import TechAtlas.Rules.Drafts
import TechAtlas.Store.PublicRead

set_option autoImplicit false

/- The version of a rule that the workers apply, as it follows from the requests of the
operators: an activation names a published version, and nothing else changes it. -/
namespace TechAtlas.Rules

open Library TechAtlas.Detector TechAtlas.Store

section Catalogue

/-- The rules with the columns that the drafts do not need: the identifiers of the versions,
in the order of their rows, and the `active_version_id` of each rule. -/
structure Catalogue where
  categories : List CategoryRow
  technologies : List TechnologyRow
  desk : Desk
  versionIds : List Uuid
  activeVersionId : Uuid → Option Uuid
  nextId : Uuid

variable (catalogue : Catalogue)

def Catalogue.versionRows : List (Uuid × VersionRow) :=
  catalogue.versionIds.zip catalogue.desk.tables.versions

def Catalogue.versionId (ruleId : Uuid) (version : Nat) : Option Uuid :=
  (catalogue.versionRows.find? fun row =>
    row.2.ruleId == ruleId && row.2.version == version).map Prod.fst

/-- `validate_detection_rule_active_version`. -/
def Catalogue.admitsActive (ruleId : Uuid) (versionId : Option Uuid) : Bool :=
  versionId.all fun id => catalogue.versionRows.any fun row =>
    row.1 == id && row.2.ruleId == ruleId

/-- The identifier of the wanted version, whose number is bound as an `i16`. -/
def Catalogue.selectVersion (ruleId : Uuid) :
    Option Nat → Except AdminOperationError (Option Uuid)
  | none => .ok none
  | some version => do
      require (decide (version < 2 ^ 15)) .validation
      let id ← orError (catalogue.versionId ruleId version) .notFound
      .ok (some id)

def Catalogue.setActiveVersion (ruleSlug : Text) (version : Option Nat) (actorSubject : Text) :
    Except AdminOperationError Catalogue := do
  let rule ← orError (catalogue.desk.tables.ruleBySlug ruleSlug) .notFound
  let versionId ← catalogue.selectVersion rule.id version
  require (catalogue.admitsActive rule.id versionId) .unavailable
  let tables ← orError (catalogue.desk.tables.audit actorSubject
    (if version.isSome then "detection_rule.activated" else "detection_rule.deactivated")
    rule.id) .unavailable
  .ok { catalogue with
    desk := { catalogue.desk with tables := tables }
    activeVersionId := Function.update catalogue.activeVersionId rule.id versionId }

/-- The inner joins of `active_detection_rules`. -/
def Catalogue.activeRule (rule : RuleRow) : Option ActiveDetectionRule := do
  let technology ← catalogue.technologies.find? fun row => row.id == rule.technologyId
  let category ← catalogue.categories.find? fun row => row.id == technology.categoryId
  let active ← catalogue.activeVersionId rule.id
  let row ← catalogue.versionRows.find? fun row => row.1 == active
  some {
    technologySlug := technology.slug
    technologyCategorySlug := category.slug
    ruleSlug := rule.slug
    version := row.2.version
    definition := row.2.definition }

def Catalogue.activeDetectionRules (collation : Collation) : List ActiveDetectionRule :=
  (catalogue.desk.tables.rules.filterMap catalogue.activeRule).insertionSort fun left right =>
    collation.le left.ruleSlug right.ruleSlug

inductive Operation
  | request (action : Action)
  | setActiveVersion (ruleSlug : Text) (version : Option Nat) (actorSubject : Text)

/-- A row that a request inserts draws its identifier. -/
def Catalogue.step (jsons : JsonCrate) (regexes : RegexCrate) : Operation → Catalogue
  | .request action =>
      let desk := Rules.step jsons regexes catalogue.desk action
      let inserted := desk.tables.versions.length - catalogue.desk.tables.versions.length
      { catalogue with
        desk := desk
        versionIds := catalogue.versionIds ++ List.range' catalogue.nextId inserted
        nextId := catalogue.nextId + inserted }
  | .setActiveVersion ruleSlug version actorSubject =>
      match catalogue.setActiveVersion ruleSlug version actorSubject with
      | .error _ => catalogue
      | .ok after => after

def Catalogue.after (jsons : JsonCrate) (regexes : RegexCrate) (operations : List Operation) :
    Catalogue :=
  run (fun state operation => state.step jsons regexes operation) catalogue operations

end Catalogue

section Soundness

variable {catalogue : Catalogue}

/-- The keys of the tables, and the foreign keys of a rule. -/
structure Catalogue.Sound (catalogue : Catalogue) : Prop where
  slugs : (catalogue.desk.tables.rules.map RuleRow.slug).Nodup
  ruleIds : (catalogue.desk.tables.rules.map RuleRow.id).Nodup
  joined : ∀ rule ∈ catalogue.desk.tables.rules, ∃ technology category,
    (catalogue.technologies.find? fun row => row.id == rule.technologyId) = some technology ∧
      (catalogue.categories.find? fun row => row.id == technology.categoryId) = some category
  length : catalogue.versionIds.length = catalogue.desk.tables.versions.length
  ids : catalogue.versionIds.Nodup
  drawn : ∀ id ∈ catalogue.versionIds, id < catalogue.nextId
  numbered : (catalogue.desk.tables.versions.map fun row => (row.ruleId, row.version)).Nodup
  active : ∀ ruleId id, catalogue.activeVersionId ruleId = some id →
    ∃ row, (id, row) ∈ catalogue.versionRows ∧ row.ruleId = ruleId

end Soundness

section Requests

variable {tables next : RuleTables} {ruleSlug actorSubject : Text} {now : Time}

theorem audit_rules {action : String} {ruleId : Uuid}
    (success : tables.audit actorSubject action ruleId = some next) :
    next.rules = tables.rules := by
  unfold RuleTables.audit at success
  split at success
  · cases success
  · rw [← Option.some.inj success]

theorem saveDraft_rules {definition : Json}
    (success : saveDraft tables ruleSlug definition actorSubject now = .ok next) :
    next.rules = tables.rules := by
  simp only [saveDraft, bind_eq_ok, orError_eq_ok] at success
  obtain ⟨rule, _, saved, upserted, audited⟩ := success
  rw [audit_rules audited]
  unfold RuleTables.upsertDraft at upserted
  split at upserted
  · cases upserted
  · split at upserted <;> rw [← Option.some.inj upserted]

theorem markDraftTested_rules :
    (markDraftTested tables ruleSlug actorSubject now).rules = tables.rules := by
  unfold markDraftTested
  split
  · rfl
  · split
    · unfold RuleTables.audit
      split <;> rfl
    · rfl

/-- What a request does to the rules and the published versions. -/
theorem request_tables (jsons : JsonCrate) (regexes : RegexCrate) (desk : Desk)
    (action : Action) :
    (step jsons regexes desk action).tables.rules = desk.tables.rules ∧
      (step jsons regexes desk action).tables.versions = desk.tables.versions := by
  refine ⟨?_, step_versions jsons desk action⟩
  cases action with
  | saveRuleDraft ruleSlug payload actorSubject now =>
      unfold step
      dsimp only
      split
      · rfl
      · split
        · rfl
        · rename_i success
          exact saveDraft_rules success
  | readDraft ruleSlug actorSubject signals =>
      unfold step
      dsimp only
      split <;> rfl
  | evaluate place =>
      unfold step
      dsimp only
      split <;> rfl
  | markTested place now =>
      unfold step
      dsimp only
      split
      · rfl
      · exact markDraftTested_rules
  | publishRuleDraft ruleSlug actorSubject now =>
      rw [step_publish]

end Requests

section Steps

variable {jsons : JsonCrate} {regexes : RegexCrate} {catalogue after : Catalogue}

theorem Catalogue.Sound.map_fst (sound : catalogue.Sound) :
    catalogue.versionRows.map Prod.fst = catalogue.versionIds :=
  List.map_fst_zip (le_of_eq sound.length)

theorem Catalogue.Sound.map_snd (sound : catalogue.Sound) :
    catalogue.versionRows.map Prod.snd = catalogue.desk.tables.versions :=
  List.map_snd_zip (le_of_eq sound.length.symm)

/-- The versions that are published, and the rules, after more requests. -/
structure Catalogue.Later (catalogue after : Catalogue) : Prop where
  categories : after.categories = catalogue.categories
  technologies : after.technologies = catalogue.technologies
  rules : after.desk.tables.rules = catalogue.desk.tables.rules
  versions : catalogue.versionRows <+: after.versionRows

theorem Catalogue.Later.refl (catalogue : Catalogue) : catalogue.Later catalogue :=
  ⟨rfl, rfl, rfl, List.prefix_refl _⟩

theorem Catalogue.Later.trans {last : Catalogue} (first : catalogue.Later after)
    (second : after.Later last) : catalogue.Later last where
  categories := second.categories.trans first.categories
  technologies := second.technologies.trans first.technologies
  rules := second.rules.trans first.rules
  versions := first.versions.trans second.versions

/-- A request inserts no version, and draws no identifier. -/
theorem request_step (catalogue : Catalogue) (action : Action) :
    catalogue.step jsons regexes (.request action) =
      { catalogue with desk := Rules.step jsons regexes catalogue.desk action } := by
  unfold Catalogue.step
  dsimp only
  rw [(request_tables jsons regexes catalogue.desk action).2, Nat.sub_self, List.range'_zero,
    List.append_nil, Nat.add_zero]

theorem request_rows (catalogue : Catalogue) (action : Action) :
    (catalogue.step jsons regexes (.request action)).versionRows = catalogue.versionRows := by
  rw [request_step]
  exact congrArg catalogue.versionIds.zip (request_tables jsons regexes catalogue.desk action).2

theorem request_later (catalogue : Catalogue) (action : Action) :
    catalogue.Later (catalogue.step jsons regexes (.request action)) where
  categories := rfl
  technologies := rfl
  rules := (request_tables jsons regexes catalogue.desk action).1
  versions := by rw [request_rows]

theorem request_sound (sound : catalogue.Sound) (action : Action) :
    (catalogue.step jsons regexes (.request action)).Sound := by
  have rows : (catalogue.step jsons regexes (.request action)).versionRows = _ :=
    request_rows catalogue action
  obtain ⟨rules, versions⟩ := request_tables jsons regexes catalogue.desk action
  constructor
  · rw [request_step, rules]
    exact sound.slugs
  · rw [request_step, rules]
    exact sound.ruleIds
  · rw [request_step, rules]
    exact sound.joined
  · rw [request_step, versions]
    exact sound.length
  · rw [request_step]
    exact sound.ids
  · rw [request_step]
    exact sound.drawn
  · rw [request_step, versions]
    exact sound.numbered
  · rw [rows, request_step]
    exact sound.active

/-- What an activation does: it is the lookup that it selects, and it sets the column. -/
theorem setActiveVersion_eq_ok {ruleSlug actorSubject : Text} {version : Option Nat}
    (success : catalogue.setActiveVersion ruleSlug version actorSubject = .ok after) :
    ∃ rule versionId, catalogue.desk.tables.ruleBySlug ruleSlug = some rule ∧
      (version = none ∧ versionId = none ∨ ∃ number id, version = some number ∧
        versionId = some id ∧ catalogue.versionId rule.id number = some id) ∧
      after.categories = catalogue.categories ∧ after.technologies = catalogue.technologies ∧
      after.desk.tables.rules = catalogue.desk.tables.rules ∧
      after.desk.tables.versions = catalogue.desk.tables.versions ∧
      after.versionIds = catalogue.versionIds ∧ after.nextId = catalogue.nextId ∧
      after.activeVersionId = Function.update catalogue.activeVersionId rule.id versionId := by
  unfold Catalogue.setActiveVersion at success
  obtain ⟨rule, named, success⟩ := bind_eq_ok.mp success
  obtain ⟨versionId, looked, success⟩ := bind_eq_ok.mp success
  obtain ⟨_, _, success⟩ := bind_eq_ok.mp success
  obtain ⟨tables, audited, success⟩ := bind_eq_ok.mp success
  cases success
  have audited := orError_eq_ok.mp audited
  have rules := audit_rules audited
  have versions := (audit_eq_some audited).2
  refine ⟨rule, versionId, orError_eq_ok.mp named, ?_, rfl, rfl, rules, versions, rfl, rfl, rfl⟩
  cases version with
  | none =>
      cases looked
      exact .inl ⟨rfl, rfl⟩
  | some number =>
      obtain ⟨_, _, looked⟩ := bind_eq_ok.mp looked
      obtain ⟨id, found, looked⟩ := bind_eq_ok.mp looked
      cases looked
      exact .inr ⟨number, id, rfl, rfl, orError_eq_ok.mp found⟩

theorem versionId_eq_some {ruleId id : Uuid} {version : Nat}
    (found : catalogue.versionId ruleId version = some id) :
    ∃ row, (id, row) ∈ catalogue.versionRows ∧ row.ruleId = ruleId ∧ row.version = version := by
  obtain ⟨⟨_, row⟩, selected, rfl⟩ := Option.map_eq_some_iff.mp found
  obtain ⟨member, chosen⟩ := find?_eq_some_mem selected
  rw [Bool.and_eq_true, beq_iff_eq, beq_iff_eq] at chosen
  exact ⟨row, member, chosen.1, chosen.2⟩

theorem setActiveVersion_later {ruleSlug actorSubject : Text} {version : Option Nat}
    (success : catalogue.setActiveVersion ruleSlug version actorSubject = .ok after) :
    catalogue.Later after := by
  obtain ⟨_, _, _, _, categories, technologies, rules, versions, ids, _, _⟩ :=
    setActiveVersion_eq_ok success
  refine ⟨categories, technologies, rules, ?_⟩
  unfold Catalogue.versionRows
  rw [versions, ids]

theorem setActiveVersion_sound (sound : catalogue.Sound) {ruleSlug actorSubject : Text}
    {version : Option Nat}
    (success : catalogue.setActiveVersion ruleSlug version actorSubject = .ok after) :
    after.Sound := by
  have later := setActiveVersion_later success
  obtain ⟨rule, versionId, _, looked, _, _, rules, versions, ids, nextId, active⟩ :=
    setActiveVersion_eq_ok success
  constructor
  · rw [rules]
    exact sound.slugs
  · rw [rules]
    exact sound.ruleIds
  · rw [rules, later.technologies, later.categories]
    exact sound.joined
  · rw [ids, versions]
    exact sound.length
  · rw [ids]
    exact sound.ids
  · rw [ids, nextId]
    exact sound.drawn
  · rw [versions]
    exact sound.numbered
  · rw [active]
    intro ruleId id selected
    by_cases own : ruleId = rule.id
    · rw [own, Function.update_self] at selected
      rcases looked with ⟨_, none⟩ | ⟨number, own', _, some', found⟩
      · rw [none] at selected
        cases selected
      · rw [some'] at selected
        cases selected
        obtain ⟨row, member, ofRule, _⟩ := versionId_eq_some found
        exact ⟨row, later.versions.subset member, ofRule.trans own.symm⟩
    · rw [Function.update_of_ne own] at selected
      obtain ⟨row, member, ofRule⟩ := sound.active ruleId id selected
      exact ⟨row, later.versions.subset member, ofRule⟩

theorem Catalogue.Sound.step (sound : catalogue.Sound) (operation : Operation) :
    (catalogue.step jsons regexes operation).Sound := by
  cases operation with
  | request action => exact request_sound sound action
  | setActiveVersion ruleSlug version actorSubject =>
      unfold Catalogue.step
      dsimp only
      split
      next => exact sound
      next after success => exact setActiveVersion_sound sound success

theorem step_later (catalogue : Catalogue) (operation : Operation) :
    catalogue.Later (catalogue.step jsons regexes operation) := by
  cases operation with
  | request action => exact request_later _ action
  | setActiveVersion ruleSlug version actorSubject =>
      unfold Catalogue.step
      dsimp only
      split
      next => exact Catalogue.Later.refl catalogue
      next after success => exact setActiveVersion_later success

theorem after_later (sound : catalogue.Sound) (operations : List Operation) :
    (catalogue.after jsons regexes operations).Sound ∧
      catalogue.Later (catalogue.after jsons regexes operations) := by
  unfold Catalogue.after
  induction operations generalizing catalogue with
  | nil => exact ⟨sound, Catalogue.Later.refl catalogue⟩
  | cons operation rest ih =>
      obtain ⟨last, later⟩ := ih (sound.step operation)
      exact ⟨last, (step_later _ operation).trans later⟩

end Steps

section History

variable (jsons : JsonCrate) (regexes : RegexCrate) (ruleSlug : Text)

/-- The active version of a rule with its definition. -/
def Catalogue.active (catalogue : Catalogue) : Option (Nat × Json) := do
  let rule ← catalogue.desk.tables.ruleBySlug ruleSlug
  let active ← catalogue.activeVersionId rule.id
  let row ← catalogue.versionRows.find? fun row => row.1 == active
  some (row.2.version, row.2.definition)

/-- The definition that was published under a version of a rule. -/
def Catalogue.published (catalogue : Catalogue) (version : Nat) : Option Json := do
  let rule ← catalogue.desk.tables.ruleBySlug ruleSlug
  let row ← catalogue.versionRows.find? fun row =>
    row.2.ruleId == rule.id && row.2.version == version
  some row.2.definition

/-- What a successful activation of the rule, or its deactivation, puts in force: the version
as it was published by then. -/
def Catalogue.activation (catalogue : Catalogue) : Operation → Option (Option (Nat × Json))
  | .request _ => none
  | .setActiveVersion own version actorSubject =>
      if own = ruleSlug ∧ (catalogue.setActiveVersion own version actorSubject).isOk then
        some (version.bind fun number =>
          (catalogue.published ruleSlug number).map fun definition => (number, definition))
      else none

/-- What the last activation of the rule has put in force. -/
def lastActivated (catalogue : Catalogue) (active : Option (Nat × Json)) :
    List Operation → Option (Nat × Json)
  | [] => active
  | operation :: rest =>
      lastActivated (catalogue.step jsons regexes operation)
        ((catalogue.activation ruleSlug operation).getD active) rest

variable {jsons regexes ruleSlug} {catalogue after : Catalogue}

theorem Catalogue.Sound.find_id (sound : catalogue.Sound) {id : Uuid} {row : VersionRow} :
    (catalogue.versionRows.find? fun other => other.1 == id) = some (id, row) ↔
      (id, row) ∈ catalogue.versionRows := by
  have unique : (catalogue.versionRows.map Prod.fst).Nodup := by
    rw [sound.map_fst]
    exact sound.ids
  rw [find?_key_eq_some unique]
  exact ⟨And.left, fun member => ⟨member, rfl⟩⟩

theorem Catalogue.Sound.find_number (sound : catalogue.Sound) {ruleId : Uuid} {version : Nat}
    {found : Uuid × VersionRow} :
    (catalogue.versionRows.find? fun other =>
        other.2.ruleId == ruleId && other.2.version == version) = some found ↔
      found ∈ catalogue.versionRows ∧ (found.2.ruleId, found.2.version) = (ruleId, version) := by
  have unique : (catalogue.versionRows.map fun row => (row.2.ruleId, row.2.version)).Nodup := by
    have same : (catalogue.versionRows.map fun row => (row.2.ruleId, row.2.version)) =
        (catalogue.versionRows.map Prod.snd).map fun row => (row.ruleId, row.version) := by
      rw [List.map_map]
      rfl
    rw [same, sound.map_snd]
    exact sound.numbered
  rw [← find?_key_eq_some unique]
  exact Iff.rfl

/-- While its column stays, a rule has the same version in force. -/
theorem Catalogue.Later.active (later : catalogue.Later after) (sound : catalogue.Sound)
    (column : ∀ rule, catalogue.desk.tables.ruleBySlug ruleSlug = some rule →
      after.activeVersionId rule.id = catalogue.activeVersionId rule.id) :
    after.active ruleSlug = catalogue.active ruleSlug := by
  have rules : after.desk.tables.ruleBySlug ruleSlug =
      catalogue.desk.tables.ruleBySlug ruleSlug := by
    unfold RuleTables.ruleBySlug
    rw [later.rules]
  unfold Catalogue.active
  rw [rules]
  cases named : catalogue.desk.tables.ruleBySlug ruleSlug with
  | none => rfl
  | some rule =>
      change Option.bind (after.activeVersionId rule.id) _ =
        Option.bind (catalogue.activeVersionId rule.id) _
      rw [column rule named]
      cases selected : catalogue.activeVersionId rule.id with
      | none => rfl
      | some id =>
          obtain ⟨row, member, _⟩ := sound.active rule.id id selected
          have found := sound.find_id.mpr member
          change Option.bind (after.versionRows.find? fun row => row.1 == id) _ =
            Option.bind (catalogue.versionRows.find? fun row => row.1 == id) _
          rw [found, find?_of_prefix later.versions found]

theorem ruleBySlug_slug {tables : RuleTables} {rule : RuleRow}
    (named : tables.ruleBySlug ruleSlug = some rule) :
    rule ∈ tables.rules ∧ rule.slug = ruleSlug := by
  obtain ⟨member, same⟩ := find?_eq_some_mem named
  exact ⟨member, beq_iff_eq.mp same⟩

/-- One operation: an activation of the rule puts its version in force, and nothing else
changes what is in force. -/
theorem step_active (sound : catalogue.Sound) (operation : Operation) :
    (catalogue.step jsons regexes operation).active ruleSlug =
      (catalogue.activation ruleSlug operation).getD (catalogue.active ruleSlug) := by
  cases operation with
  | request action => exact (request_later _ action).active sound fun _ _ => rfl
  | setActiveVersion own version actorSubject =>
      have stepped : ∀ result, catalogue.setActiveVersion own version actorSubject = result →
          catalogue.step jsons regexes (.setActiveVersion own version actorSubject) =
            match result with
            | .error _ => catalogue
            | .ok after => after := by
        intro result same
        unfold Catalogue.step
        dsimp only
        rw [same]
      unfold Catalogue.activation
      dsimp only
      cases success : catalogue.setActiveVersion own version actorSubject with
      | error reason =>
          rw [stepped _ success, if_neg (fun chosen => (nomatch chosen.2))]
          rfl
      | ok after =>
          have later := setActiveVersion_later success
          obtain ⟨rule, versionId, named, looked, _, _, _, versions, ids, _, column⟩ :=
            setActiveVersion_eq_ok success
          rw [stepped _ success]
          dsimp only
          by_cases same : own = ruleSlug
          · rw [if_pos ⟨same, rfl⟩, Option.getD_some]
            rw [same] at named
            have rules : after.desk.tables.ruleBySlug ruleSlug = some rule := by
              unfold RuleTables.ruleBySlug at named ⊢
              rw [later.rules]
              exact named
            unfold Catalogue.active
            rw [rules]
            change Option.bind (after.activeVersionId rule.id) _ = _
            rw [column, Function.update_self]
            rcases looked with ⟨rfl, rfl⟩ | ⟨number, id, rfl, rfl, found⟩
            · rfl
            · obtain ⟨row, member, ofRule, numbered⟩ := versionId_eq_some found
              have byId : after.versionRows.find? (fun other => other.1 == id) = some (id, row) :=
                find?_of_prefix later.versions (sound.find_id.mpr member)
              have byNumber : catalogue.versionRows.find? (fun other =>
                  other.2.ruleId == rule.id && other.2.version == number) = some (id, row) :=
                sound.find_number.mpr ⟨member, Prod.ext ofRule numbered⟩
              change Option.bind (after.versionRows.find? fun other => other.1 == id) _ =
                Option.map _ (catalogue.published ruleSlug number)
              unfold Catalogue.published
              rw [byId, named]
              change _ = Option.map _ (Option.bind (catalogue.versionRows.find? _) _)
              rw [byNumber]
              change some (row.version, row.definition) = some (number, row.definition)
              rw [numbered]
          · rw [if_neg (fun chosen => same chosen.1), Option.getD_none]
            apply later.active sound
            intro other found
            rw [column]
            apply Function.update_of_ne
            intro sameId
            obtain ⟨inRules, ownSlug⟩ := ruleBySlug_slug named
            obtain ⟨otherIn, otherSlug⟩ := ruleBySlug_slug found
            have equal := eq_of_key_eq sound.ruleIds otherIn inRules sameId
            rw [equal, ownSlug] at otherSlug
            exact same otherSlug

theorem after_active (sound : catalogue.Sound) (operations : List Operation) :
    (catalogue.after jsons regexes operations).active ruleSlug =
      lastActivated jsons regexes ruleSlug catalogue (catalogue.active ruleSlug) operations := by
  unfold Catalogue.after
  induction operations generalizing catalogue with
  | nil => rfl
  | cons operation rest ih =>
      rw [run_cons, ih (sound.step operation), step_active sound]
      rfl

/-- The joins of an active rule lose nothing. -/
theorem activeRule_active (sound : catalogue.Sound) {rule : RuleRow}
    (named : catalogue.desk.tables.ruleBySlug ruleSlug = some rule) :
    (catalogue.activeRule rule).map (fun found => (found.version, found.definition)) =
      catalogue.active ruleSlug := by
  obtain ⟨technology, category, ofTechnology, ofCategory⟩ :=
    sound.joined rule (ruleBySlug_slug named).1
  unfold Catalogue.activeRule Catalogue.active
  rw [named, ofTechnology]
  change Option.map _ (Option.bind (catalogue.categories.find? _) _) =
    Option.bind (catalogue.activeVersionId rule.id) _
  rw [ofCategory]
  change Option.map _ (Option.bind (catalogue.activeVersionId rule.id) _) = _
  cases catalogue.activeVersionId rule.id with
  | none => rfl
  | some id =>
      change Option.map _ (Option.bind (catalogue.versionRows.find? fun row => row.1 == id) _) =
        Option.bind (catalogue.versionRows.find? fun row => row.1 == id) _
      cases catalogue.versionRows.find? fun row => row.1 == id <;> rfl

theorem activeRule_slug {rule : RuleRow} {found : ActiveDetectionRule}
    (joined : catalogue.activeRule rule = some found) : found.ruleSlug = rule.slug := by
  obtain ⟨_, _, joined⟩ := Option.bind_eq_some_iff.mp joined
  obtain ⟨_, _, joined⟩ := Option.bind_eq_some_iff.mp joined
  obtain ⟨_, _, joined⟩ := Option.bind_eq_some_iff.mp joined
  obtain ⟨_, _, joined⟩ := Option.bind_eq_some_iff.mp joined
  cases joined
  rfl

/-- What the workers read of a rule is the version in force, if there is one. -/
theorem activeDetectionRules_active (sound : catalogue.Sound) (collation : Collation) :
    ((catalogue.activeDetectionRules collation).filter fun rule =>
      rule.ruleSlug == ruleSlug).map (fun rule => (rule.version, rule.definition)) =
        (catalogue.active ruleSlug).toList := by
  have sorted : ((catalogue.activeDetectionRules collation).filter fun rule =>
      rule.ruleSlug == ruleSlug).Perm
        ((catalogue.desk.tables.rules.filterMap catalogue.activeRule).filter fun rule =>
          rule.ruleSlug == ruleSlug) :=
    (List.perm_insertionSort _ _).filter _
  have moved : ((catalogue.desk.tables.rules.filterMap catalogue.activeRule).filter fun rule =>
      rule.ruleSlug == ruleSlug) =
        (catalogue.desk.tables.rules.filter fun rule => rule.slug == ruleSlug).filterMap
          catalogue.activeRule := by
    rw [List.filter_filterMap, List.filterMap_filter]
    apply List.filterMap_congr
    intro rule _
    cases joined : catalogue.activeRule rule with
    | none => simp
    | some found =>
        have slug := activeRule_slug joined
        by_cases own : rule.slug = ruleSlug
        · simp [slug, own]
        · simp [slug, own]
  rw [moved, filter_key_eq_toList sound.slugs] at sorted
  have named : catalogue.desk.tables.ruleBySlug ruleSlug =
      catalogue.desk.tables.rules.find? fun rule => rule.slug == ruleSlug := rfl
  rw [← named] at sorted
  cases found : catalogue.desk.tables.ruleBySlug ruleSlug with
  | none =>
      rw [found] at sorted
      rw [sorted.eq_nil]
      unfold Catalogue.active
      rw [found]
      rfl
  | some rule =>
      rw [found] at sorted
      rw [← activeRule_active sound found]
      cases joined : catalogue.activeRule rule with
      | none =>
          rw [Option.toList_some, List.filterMap_cons_none joined] at sorted
          rw [sorted.eq_nil]
          rfl
      | some active =>
          rw [Option.toList_some, List.filterMap_cons_some joined] at sorted
          rw [List.perm_singleton.mp sorted]
          rfl

/-- After any history of saving, testing, publishing and activating, by any operators, the
workers apply the version that was activated last, as it was published by then. -/
theorem active_rules_follow (sound : catalogue.Sound) (collation : Collation)
    (operations : List Operation) (ruleSlug : Text) :
    (((catalogue.after jsons regexes operations).activeDetectionRules
      collation).filter fun rule => rule.ruleSlug == ruleSlug).map
        (fun rule => (rule.version, rule.definition)) =
      (lastActivated jsons regexes ruleSlug catalogue (catalogue.active ruleSlug)
        operations).toList := by
  rw [← after_active sound]
  exact activeDetectionRules_active (after_later sound operations).1 collation

/-- A rule with two versions, of which the first is active. -/
def nginxCatalogue : Catalogue where
  categories := [{ id := 3, slug := "hosting".toList, displayName := "Hosting".toList }]
  technologies := [{
    id := 2
    categoryId := 3
    slug := "nginx".toList
    displayName := "nginx".toList }]
  desk := Desk.seeded nginxRules [nginxVersion,
    { ruleId := 1, version := 2, definition := headerRule 50 60, publishedAt := 0 }]
  versionIds := [4, 5]
  activeVersionId := fun ruleId => if ruleId = 1 then some 4 else none
  nextId := 6

theorem nginxCatalogue_sound : nginxCatalogue.Sound where
  slugs := List.nodup_singleton _
  ruleIds := List.nodup_singleton _
  joined rule member := by
    rw [List.mem_singleton.mp member]
    exact ⟨_, _, rfl, rfl⟩
  length := rfl
  ids := by decide
  drawn := by decide
  numbered := by decide
  active ruleId id selected := by
    change (if ruleId = 1 then some 4 else none) = some id at selected
    split at selected
    · rename_i own
      cases selected
      exact ⟨_, List.mem_cons_self, own.symm⟩
    · cases selected

/-- The other version is activated while a draft is tested, and given up for the old one. -/
def rolledBack : List Operation :=
  testedDraft.map .request ++
    [.setActiveVersion "nginx".toList (some 2) "operator".toList,
      .request (.publishRuleDraft "nginx".toList "operator".toList 3),
      .setActiveVersion "nginx".toList (some 1) "operator".toList]

theorem rolledBack_restores :
    (((nginxCatalogue.after payloadJsons noRegexes rolledBack).activeDetectionRules
      codePoints).filter fun rule => rule.ruleSlug == "nginx".toList).map
        (fun rule => (rule.version, rule.definition)) = [(1, headerRule 50 80)] :=
  (active_rules_follow nginxCatalogue_sound codePoints rolledBack "nginx".toList).trans
    (by decide +kernel)

end History

end TechAtlas.Rules
