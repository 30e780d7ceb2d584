import TechAtlas.Store.Keys
import TechAtlas.Technologies.Recorded

set_option autoImplicit false

/- The log of technology changes and the table of current technologies, over
runs of the store in which every success records what one evaluation of the
rules returned. -/
namespace TechAtlas.Technologies

open Library Store Detector

/-- The part of the log that is about the domain. -/
def logOf (domainId : Uuid) (changes : List ChangeRow) : List (Delta Uuid) :=
  (changes.filter fun row => row.domainId == domainId).map delta

/-- The technologies of a domain, by its part of the log. -/
def replayed (domainId : Uuid) (changes : List ChangeRow) : Finset Uuid :=
  replay ∅ ((changes.filter fun row => row.domainId == domainId).map delta)

theorem replayed_eq (domainId : Uuid) (changes : List ChangeRow) :
    replayed domainId changes = replay ∅ (logOf domainId changes) := rfl

structure Agrees (catalogue : Catalogue) (history : History) : Prop where
  listed : AllListed catalogue history.current
  agree : ∀ domainId,
    replayed domainId history.changes = currentTechnologies domainId history.current
  shaped : ∀ row ∈ history.changes, row.shapeValid = true
  alternates : ∀ domainId, Applicable ∅ (logOf domainId history.changes)

section Projection

variable {catalogue : Catalogue} {domainId snapshotId : Uuid} {capturedAt : Time}
  {history next : History} {detections : List Detection} {observations : List RuleObservation}
  {ids : DetectionIds} {previous : List PersistedCurrentTechnology}

theorem identified_of_detected (coherent : Coherent detections observations)
    (stored : AllStored detections ids)
    (listed : ∀ observation ∈ observations, ∃ id, Listed catalogue observation.state id) :
    ∀ state ∈ observedAs observations .detected, Identified catalogue ids state := by
  intro state member
  obtain ⟨observation, inObservations, detected, rfl⟩ := mem_observedAs.mp member
  obtain ⟨detection, inDetections, same⟩ :=
    coherent.detected observation inObservations detected
  obtain ⟨id, found⟩ := stored detection inDetections
  exact ⟨listed observation inObservations, id, by rw [← found, same]; rfl⟩

/-- The rows of the derived changes are well formed, and each does what its
change says. -/
theorem derivedChanges_inserted (snapshotId : Uuid) (capturedAt : Time) (rows : List ChangeRow)
    {current : List CurrentRow} (reading : ReadBack catalogue domainId current previous)
    (identified : ∀ state ∈ observedAs observations .detected, Identified catalogue ids state)
    {transition : ProjectionTransition}
    (derived : transition =
      deriveProjection (previous.map PersistedCurrentTechnology.state) observations) :
    ∃ added, transition.changes.foldlM
        (insertChange catalogue domainId snapshotId capturedAt previous ids) rows =
        .ok (rows ++ added) ∧
      (∀ row ∈ added, row.domainId = domainId ∧ row.shapeValid = true) ∧
      added.map delta = transition.changes.map (changeDelta catalogue) := by
  let states := previous.map PersistedCurrentTechnology.state
  have gained : ∀ addition ∈ additions states observations, Identified catalogue ids addition :=
    fun addition member => identified addition (List.mem_of_mem_filter member)
  have lost : ∀ removal ∈ removals states observations, Persisted catalogue previous removal :=
    fun removal member => reading.find (List.mem_filter.mp member).2
  have unsorted : ∀ change ∈ transition.changes,
      change ∈ unsortedChanges (additions states observations) (removals states observations) := by
    intro change member
    rw [derived] at member
    exact (List.mem_insertionSort _).mp member
  exact insertChanges_eq_ok domainId snapshotId capturedAt gained lost unsorted

theorem logOf_append_own {changes added : List ChangeRow}
    (own : ∀ row ∈ added, row.domainId = domainId) :
    logOf domainId (changes ++ added) = logOf domainId changes ++ added.map delta := by
  have kept : added.filter (fun row => row.domainId == domainId) = added := by
    rw [List.filter_eq_self]
    intro row member
    rw [own row member, beq_self_eq_true]
  unfold logOf
  rw [List.filter_append, kept, List.map_append]

theorem logOf_append_other {other : Uuid} (differs : other ≠ domainId)
    {changes added : List ChangeRow} (own : ∀ row ∈ added, row.domainId = domainId) :
    logOf other (changes ++ added) = logOf other changes := by
  have dropped : added.filter (fun row => row.domainId == other) = [] := by
    rw [List.filter_eq_nil_iff]
    intro row member
    rw [own row member, beq_iff_eq]
    exact differs.symm
  unfold logOf
  rw [List.filter_append, dropped, List.append_nil]

theorem replayed_append_own {changes added : List ChangeRow}
    (own : ∀ row ∈ added, row.domainId = domainId) :
    replayed domainId (changes ++ added) = replay (replayed domainId changes) (added.map delta) := by
  rw [replayed_eq, logOf_append_own own, replay_append, replayed_eq]

theorem replayed_append_other {other : Uuid} (differs : other ≠ domainId)
    {changes added : List ChangeRow} (own : ∀ row ∈ added, row.domainId = domainId) :
    replayed other (changes ++ added) = replayed other changes := by
  rw [replayed_eq, logOf_append_other differs own, replayed_eq]

theorem Agrees.of_same (agrees : Agrees catalogue history) (current : next.current = history.current)
    (changes : next.changes = history.changes) : Agrees catalogue next := by
  constructor
  · rw [current]
    exact agrees.listed
  · intro domainId
    rw [current, changes]
    exact agrees.agree domainId
  · rw [changes]
    exact agrees.shaped
  · rw [changes]
    exact agrees.alternates

/-- One projection, from the state it reads to the rows it writes. -/
theorem Agrees.project (agrees : Agrees catalogue history)
    (reading : ReadBack catalogue domainId history.current previous)
    (distinct : (observations.map RuleObservation.technologySlug).Nodup)
    (identified : ∀ state ∈ observedAs observations .detected, Identified catalogue ids state)
    {transition : ProjectionTransition}
    (derived : transition =
      deriveProjection (previous.map PersistedCurrentTechnology.state) observations)
    {current : List CurrentRow} {added : List ChangeRow}
    (activated : transition.activate.foldlM
      (activate catalogue domainId snapshotId capturedAt ids)
      (transition.deactivate.foldl (deactivate catalogue domainId) history.current) = .ok current)
    (facts : ∀ row ∈ added, row.domainId = domainId ∧ row.shapeValid = true)
    (deltas : added.map delta = transition.changes.map (changeDelta catalogue)) :
    Agrees catalogue { history with current := current, changes := history.changes ++ added } := by
  have on : ∀ state ∈ transition.activate, Identified catalogue ids state := by
    intro state member
    rw [derived] at member
    exact identified state (mem_of_mem_sortedBySlug member)
  have held (domain technology : Uuid) : Holds current domain technology ↔
      (Holds history.current domain technology ∧ ¬(domain = domainId ∧
          ∃ state ∈ transition.deactivate,
            idOf catalogue state.technologySlug.1 = some technology)) ∨
        (domain = domainId ∧ ∃ state ∈ transition.activate,
          idOf catalogue state.technologySlug.1 = some technology) := by
    rw [activateAll_holds on activated, deactivateAll_holds]
  have own : ∀ row ∈ added, row.domainId = domainId := fun row member => (facts row member).1
  refine ⟨?_, ?_, ?_, ?_⟩
  · intro row member
    rcases (held row.domainId row.technologyId).mp ⟨row, member, rfl, rfl⟩ with
      ⟨⟨old, inOld, _, same⟩, _⟩ | ⟨_, state, inOn, known⟩
    · rw [← same]
      exact agrees.listed old inOld
    · obtain ⟨⟨id, listed⟩, _⟩ := on state inOn
      rw [Option.some.inj (known.symm.trans listed.idOf)]
      exact ⟨state, listed⟩
  · intro domain
    ext technology
    by_cases same : domain = domainId
    · subst same
      rw [replayed_append_own own, agrees.agree, deltas, replay_derived reading distinct derived,
        mem_currentTechnologies, held]
      simp
    · rw [replayed_append_other same own, agrees.agree, mem_currentTechnologies,
        mem_currentTechnologies, held]
      simp [same]
  · intro row member
    rcases List.mem_append.mp member with old | new
    · exact agrees.shaped row old
    · exact (facts row new).2
  · intro domain
    by_cases same : domain = domainId
    · subst same
      rw [logOf_append_own own, applicable_append, deltas]
      refine ⟨agrees.alternates domain, ?_⟩
      rw [← replayed_eq, agrees.agree]
      exact derived_applicable reading distinct derived
    · rw [logOf_append_other same own]
      exact agrees.alternates domain

/-- A projection leaves the log and the table in agreement, or the database
refuses a row; no other failure is reached. -/
theorem applyProjection_cases (agrees : Agrees catalogue history)
    (coherent : Coherent detections observations) (stored : AllStored detections ids) :
    applyProjection catalogue domainId snapshotId capturedAt history observations ids =
        .error .database ∨
      ∃ next, applyProjection catalogue domainId snapshotId capturedAt history observations ids =
        .ok next ∧ Agrees catalogue next := by
  cases inserted : observations.foldlM (insertObservation catalogue snapshotId capturedAt)
      history with
  | none => exact Or.inl (bind_eq_error.mpr (Or.inl (by rw [inserted]; rfl)))
  | some observed =>
      obtain ⟨⟨sameCurrent, sameChanges⟩, listed⟩ := insertObservations_eq_some inserted
      have before := agrees.of_same sameCurrent sameChanges
      have identified := identified_of_detected coherent stored listed
      obtain ⟨previous, read, reading⟩ := previousTechnologies_eq_some domainId before.listed
      let transition :=
        deriveProjection (previous.map PersistedCurrentTechnology.state) observations
      obtain ⟨added, logged, facts, deltas⟩ := derivedChanges_inserted snapshotId capturedAt
        observed.changes reading identified (rfl : transition = _)
      cases activated : transition.activate.foldlM
          (activate catalogue domainId snapshotId capturedAt ids)
          (transition.deactivate.foldl (deactivate catalogue domainId) observed.current) with
      | error reason =>
          have on : ∀ state ∈ transition.activate, Identified catalogue ids state :=
            fun state member => identified state (mem_of_mem_sortedBySlug member)
          rw [activateAll_error on activated] at activated
          exact Or.inl (bind_eq_error.mpr (Or.inr ⟨observed, orError_eq_ok.mpr inserted,
            bind_eq_error.mpr (Or.inr ⟨previous, orError_eq_ok.mpr read,
              bind_eq_error.mpr (Or.inl activated)⟩)⟩))
      | ok current =>
          refine Or.inr ⟨{ observed with current := current, changes := observed.changes ++ added },
            ?_, before.project reading coherent.distinct identified rfl activated facts deltas⟩
          exact bind_eq_ok.mpr ⟨observed, orError_eq_ok.mpr inserted,
            bind_eq_ok.mpr ⟨previous, orError_eq_ok.mpr read,
              bind_eq_ok.mpr ⟨current, activated, bind_eq_ok.mpr ⟨_, logged, rfl⟩⟩⟩⟩

/-- Recording an evaluation, from its detections to its projection. -/
theorem recordHistory_cases {fresh : FreshSnapshot} {record : SuccessfulCrawlRecord}
    (agrees : Agrees catalogue history)
    (coherent : Coherent record.detections record.observations) :
    recordHistory catalogue domainId fresh record history = .error .database ∨
      ∃ next, recordHistory catalogue domainId fresh record history = .ok next ∧
        Agrees catalogue next := by
  unfold recordHistory
  dsimp only
  cases recorded : recordDetections catalogue fresh.snapshotId record.snapshot.capturedAt
      fresh.detectionId history [] 0 record.detections with
  | none => exact Or.inl rfl
  | some result =>
      obtain ⟨mid, ids⟩ := result
      obtain ⟨⟨current, changes⟩, stored⟩ := recordDetections_eq_some recorded
      exact applyProjection_cases (agrees.of_same current changes) coherent stored

theorem persistSuccess_error {db : Database} {attempt : AttemptRow}
    {record : SuccessfulCrawlRecord} {fresh : FreshSnapshot} {reason : UnavailableReason}
    (agrees : Agrees db.catalogue db.history)
    (coherent : Coherent record.detections record.observations)
    (failure : persistSuccess db attempt record fresh = .error reason) : reason = .database := by
  unfold persistSuccess at failure
  rcases bind_eq_error.mp failure with here | ⟨_, updated, failure⟩
  · exact reason_of_orError here
  rcases bind_eq_error.mp failure with here | ⟨_, captured, failure⟩
  · exact reason_of_orError here
  rcases bind_eq_error.mp failure with here | ⟨_, located, failure⟩
  · exact reason_of_orError here
  rcases bind_eq_error.mp failure with here | ⟨_, archived, failure⟩
  · exact reason_of_orError here
  obtain ⟨_, rfl⟩ := updateAttempt_eq_some.mp (orError_eq_ok.mp updated)
  obtain ⟨_, _, rfl⟩ := Option.map_eq_some_iff.mp (orError_eq_ok.mp captured)
  obtain ⟨_, rfl⟩ := insertCountry_eq_some (orError_eq_ok.mp located)
  obtain ⟨_, rfl⟩ := insertArtifact_eq_some (orError_eq_ok.mp archived)
  rcases bind_eq_error.mp failure with here | ⟨_, _, last⟩
  · rcases recordHistory_cases agrees coherent with refused | ⟨next, recorded, _⟩
    · exact Except.error.inj (here.symm.trans refused)
    · cases here.symm.trans recorded
  · exact reason_of_orError last

theorem recordSuccess_error {db : Database} {job : CrawlJobV1} {record : SuccessfulCrawlRecord}
    {fresh : FreshSnapshot} {reason : UnavailableReason}
    (agrees : Agrees db.catalogue db.history)
    (coherent : Coherent record.detections record.observations)
    (failure : recordSuccess db job record fresh = .error (.unavailable reason)) :
    reason = .database := by
  unfold recordSuccess at failure
  rcases bind_eq_error.mp failure with missing | ⟨⟨attempt, _⟩, _, failure⟩
  · cases reason_of_orError missing
  · dsimp only at failure
    split at failure
    · cases failure
    · obtain ⟨own, persisted, same⟩ := mapError_eq_error.mp failure
      cases same
      exact persistSuccess_error agrees coherent persisted

end Projection

section Runs

/-- The record holds what one evaluation returned, of some artifacts and of
rules of different technologies. -/
def Evaluated (regexes : RegexCrate) (record : SuccessfulCrawlRecord) : Prop :=
  ∃ parsed rules evaluation, onePerTechnology rules ∧
    evaluateActive regexes parsed rules = .ok evaluation ∧
    record.detections = evaluation.detections ∧ record.observations = evaluation.observations

theorem Evaluated.coherent {regexes : RegexCrate} {record : SuccessfulCrawlRecord}
    (evaluated : Evaluated regexes record) : Coherent record.detections record.observations := by
  obtain ⟨parsed, rules, evaluation, single, success, detections, observations⟩ := evaluated
  rw [detections, observations]
  exact evaluateActive_coherent single success

/-- `INSERT INTO detection_rule_versions`, how a draft is published; a version
that the rule already has is refused. -/
def insertRuleVersion (catalogue : Catalogue) (row : RuleVersionRow) : Catalogue :=
  if free : ∀ old ∈ catalogue.ruleVersions, (old.ruleId, old.version) ≠ (row.ruleId, row.version)
  then { catalogue with
    ruleVersions := catalogue.ruleVersions ++ [row]
    ruleVersions_nodup := nodup_map_concat catalogue.ruleVersions_nodup free }
  else catalogue

theorem insertRuleVersion_listed (catalogue : Catalogue) (row : RuleVersionRow)
    {state : CurrentTechnology} {id : Uuid} (listed : Listed catalogue state id) :
    Listed (insertRuleVersion catalogue row) state id := by
  unfold insertRuleVersion
  split
  · exact listed
  · exact listed

/-- The rules change between the calls. -/
inductive Action
  | call (call : Call)
  | publish (row : RuleVersionRow)

def step (crate : UrlCrate) (db : Database) : Action → Database
  | .call call => exec crate db call
  | .publish row => { db with catalogue := insertRuleVersion db.catalogue row }

/-- Whatever the action records comes from an evaluation. -/
def Action.evaluated (regexes : RegexCrate) : Action → Prop
  | .call made => ∀ record, made.records record → Evaluated regexes record
  | .publish _ => True

structure Sound (db : Database) : Prop where
  keys : Keys db
  agrees : Agrees db.catalogue db.history

theorem initial_agrees (catalogue : Catalogue) : Sound (Database.initial catalogue) where
  keys := initial_keys catalogue
  agrees := ⟨fun _ member => (nomatch member), fun _ => rfl, fun _ member => (nomatch member),
    fun _ => trivial⟩

theorem exec_agrees {crate : UrlCrate} {regexes : RegexCrate} {db : Database} {call : Call}
    (evaluated : ∀ record, call.records record → Evaluated regexes record) (sound : Sound db) :
    Sound (exec crate db call) := by
  refine ⟨exec_keys crate db call sound.keys, ?_⟩
  rcases exec_records sound.keys.policyKeys call with same |
    ⟨attempt, _, record, fresh, recorded, success⟩
  · rw [same.catalogue, same.history]
    exact sound.agrees
  · obtain ⟨_, _, _, _, history, stored, next⟩ := persistSuccess_eq_ok success
    rw [next]
    rcases recordHistory_cases sound.agrees (evaluated record recorded).coherent with refused |
      ⟨_, kept, agrees⟩
    · cases stored.symm.trans refused
    · cases stored.symm.trans kept
      exact agrees

theorem step_agrees {crate : UrlCrate} {regexes : RegexCrate} (db : Database) (action : Action)
    (evaluated : action.evaluated regexes) (sound : Sound db) : Sound (step crate db action) := by
  cases action with
  | call call => exact exec_agrees evaluated sound
  | publish row =>
      refine ⟨sound.keys.of_same rfl rfl, ?_, sound.agrees.agree, sound.agrees.shaped,
        sound.agrees.alternates⟩
      intro current member
      obtain ⟨state, listed⟩ := sound.agrees.listed current member
      exact ⟨state, insertRuleVersion_listed db.catalogue row listed⟩

/-- In every state of a run whose successes record evaluations, the log of a
domain replays to its current technologies, and recording a further evaluation
does not fail for want of a detection, of a subject or of a well-formed row. -/
theorem changes_replay_to_current (crate : UrlCrate) (regexes : RegexCrate) (catalogue : Catalogue)
    (actions : List Action) (evaluated : ∀ action ∈ actions, action.evaluated regexes) :
    let db := run (step crate) (Database.initial catalogue) actions
    (∀ domainId, replayed domainId db.history.changes =
        currentTechnologies domainId db.history.current) ∧
      (∀ job record fresh reason, Evaluated regexes record →
        recordSuccess db job record fresh = .error (.unavailable reason) → reason = .database) ∧
      ∀ row ∈ db.history.changes, row.shapeValid = true := by
  intro db
  have sound : Sound db := run_invariant_of_guarded step_agrees (Database.initial catalogue) actions
    (guarded_of_forall (step crate) _ actions evaluated) (initial_agrees catalogue)
  refine ⟨sound.agrees.agree, ?_, sound.agrees.shaped⟩
  intro job record fresh reason isEvaluated failure
  exact recordSuccess_error sound.agrees isEvaluated.coherent failure

/-- One category of two technologies, each with a rule. -/
def twoSystems : Catalogue where
  categories := [⟨1, "cms".toList, "CMS".toList⟩]
  technologies := [⟨11, 1, "wordpress".toList, "WordPress".toList⟩,
    ⟨12, 1, "drupal".toList, "Drupal".toList⟩]
  rules := [⟨21, 11, "wordpress-rule".toList⟩, ⟨22, 12, "drupal-rule".toList⟩]
  ruleVersions := [⟨31, 21, 1⟩, ⟨32, 22, 1⟩]
  providers := []
  providerMappings := []
  categories_id_nodup := by decide
  categories_slug_nodup := by decide
  technologies_id_nodup := by decide
  technologies_slug_nodup := by decide
  rules_slug_nodup := by decide
  rules_technology_nodup := by decide
  ruleVersions_nodup := by decide
  providers_slug_nodup := by decide
  providerMappings_nodup := by decide
  technologies_category := by decide

/-- A rule that looks for the technology in the generator of the page. -/
def generatorRule (technology : String) (version : Nat) : ActiveDetectionRule where
  technologySlug := technology.toList
  technologyCategorySlug := "cms".toList
  ruleSlug := (technology ++ "-rule").toList
  version := version
  definition := .object [("threshold".toList, .number (.posInt 70)),
    ("signals".toList, .array [.object [("source".toList, .string "html".toList),
      ("key".toList, .string "generator".toList),
      ("match".toList, .string "contains_ignore_case".toList),
      ("value".toList, .string technology.toList),
      ("weight".toList, .number (.posInt 80))]])]

def generatedBy (value : String) : Parser.ParsedArtifacts where
  evidence := [⟨.html, "generator".toList, value.toList⟩]
  availabilityOf := [(.html, .available)]

/-- The rules above have no version pattern, so that no pattern is compiled. -/
def noRegexes : RegexCrate where
  compile _ := none

/-- What the two rules make of a page, whose generator is given. -/
def siteEvaluation (generator : String) (version : Nat) : Option DetectionEvaluation :=
  (evaluateActive noRegexes (generatedBy generator)
    [generatorRule "wordpress" version, generatorRule "drupal" 1]).toOption

theorem wordPress_evaluated : (siteEvaluation "WordPress 6.8" 1).isSome = true := by
  decide +kernel

theorem drupal_evaluated : (siteEvaluation "Drupal 11" 1).isSome = true := by
  decide +kernel

/-- The evaluation under the second version of the rule. -/
theorem drupal_evaluated_again : (siteEvaluation "Drupal 11" 2).isSome = true := by
  decide +kernel

def siteRecord (capturedAt : Time) (evaluation : DetectionEvaluation) : SuccessfulCrawlRecord where
  snapshot := {
    requestedUrl := "https://example.com/".toList
    finalUrl := "https://example.com/".toList
    redirects := []
    responseStatus := 200
    responseHeaders := []
    bodySizeBytes := 0
    capturedAt := capturedAt
    countryObservation := none }
  artifact := none
  detections := evaluation.detections
  observations := evaluation.observations

theorem siteRecord_evaluated {generator : String} {version : Nat} {evaluation : DetectionEvaluation}
    (success : siteEvaluation generator version = some evaluation) (capturedAt : Time) :
    Evaluated noRegexes (siteRecord capturedAt evaluation) := by
  have apart : Slug.parse "wordpress".toList ≠ Slug.parse "drupal".toList := by decide
  exact ⟨_, _, evaluation, by simpa [onePerTechnology, generatorRule] using apart,
    toOption_eq_some.mp success, rfl, rfl⟩

/-- A crawl that finds the first system and one that finds the second, with a
new version of the first one's rule in between. -/
def migratedSite (before after : DetectionEvaluation) : List Action :=
  let domain := exampleDomain
  let first : CrawlJobV1 := newJobWithCorrelation 1 12 11
  let second : CrawlJobV1 := newJobWithCorrelation 1 22 21
  [.call (.createWithAudit 1 domain DomainCreationDefaults.crawlPolicy "operator".toList 0),
    .call (.reserveDue 0 10 fun _ => ⟨10, 11, 12⟩),
    .call (.claimAttempt first 5),
    .call (.recordSuccess first (siteRecord 6 before) ⟨40, fun n => 50 + n⟩),
    .publish ⟨33, 21, 2⟩,
    .call (.requestDomainCrawl domain "operator".toList 7),
    .call (.reserveDue 8 10 fun _ => ⟨20, 21, 22⟩),
    .call (.claimAttempt second 9),
    .call (.recordSuccess second (siteRecord 10 after) ⟨60, fun n => 70 + n⟩)]

theorem migratedSite_evaluated {before after : DetectionEvaluation}
    (first : Evaluated noRegexes (siteRecord 6 before))
    (second : Evaluated noRegexes (siteRecord 10 after)) :
    ∀ action ∈ migratedSite before after, action.evaluated noRegexes := by
  simp only [migratedSite, List.forall_mem_cons, Action.evaluated, Call.records]
  refine ⟨?_, ?_, ?_, ?_, trivial, ?_, ?_, ?_, ?_, by simp⟩
  case refine_4 =>
    rintro record rfl
    exact first
  case refine_8 =>
    rintro record rfl
    exact second
  all_goals exact fun _ recorded => recorded.elim

theorem migratedSite_replays :
    let before := (siteEvaluation "WordPress 6.8" 1).get wordPress_evaluated
    let after := (siteEvaluation "Drupal 11" 2).get drupal_evaluated_again
    let db := run (step plainUrlCrate) (Database.initial twoSystems) (migratedSite before after)
    db.history.changes.map ChangeRow.kind = [.added, .migrated] ∧
      replayed 1 db.history.changes = {12} ∧
      replayed 1 db.history.changes = currentTechnologies 1 db.history.current :=
  ⟨by decide +kernel, by decide +kernel,
    (changes_replay_to_current plainUrlCrate noRegexes twoSystems _ (migratedSite_evaluated
      (siteRecord_evaluated (Option.some_get _).symm 6)
      (siteRecord_evaluated (Option.some_get _).symm 10))).1 1⟩

end Runs

end TechAtlas.Technologies
