import TechAtlas.Store.Adoption
import TechAtlas.Technologies.Trends

set_option autoImplicit false

/- The daily adoption counts: those captured from the current technologies
against those rebuilt from the detections of each domain's latest snapshot. -/
namespace TechAtlas.Technologies

open Library Store Detector

section Successes

/-- A `record_success` that stores its snapshot. -/
structure Success where
  attempt : AttemptRow
  record : SuccessfulCrawlRecord
  fresh : FreshSnapshot

def Success.domainId (success : Success) : Uuid := success.attempt.domainId

def Success.capturedAt (success : Success) : Time := success.record.snapshot.capturedAt

def Success.row (success : Success) : SnapshotRow :=
  snapshotRow success.attempt success.fresh.snapshotId success.record.snapshot

/-- What the transaction does to the tables the adoption counts are made of. -/
def commit (db : Database) (success : Success) : Except UnavailableReason Database := do
  let snapshots ← orError (insertChecked (fun rows row => rows.all fun old => old.id != row.id)
    success.row db.snapshots) .database
  let history ← recordHistory db.catalogue success.domainId success.fresh success.record db.history
  .ok { db with snapshots := snapshots, history := history }

def commitAll (db : Database) (successes : List Success) : Except UnavailableReason Database :=
  successes.foldlM commit db

theorem commitAll_concat {db next : Database} {successes : List Success} {last : Success} :
    commitAll db (successes ++ [last]) = .ok next ↔
      ∃ mid, commitAll db successes = .ok mid ∧ commit mid last = .ok next := by
  unfold commitAll
  rw [List.foldlM_append, bind_eq_ok]
  constructor
  · rintro ⟨mid, before, success⟩
    obtain ⟨_, done, same⟩ := bind_eq_ok.mp success
    cases same
    exact ⟨mid, before, done⟩
  · rintro ⟨mid, before, done⟩
    exact ⟨mid, before, bind_eq_ok.mpr ⟨next, done, rfl⟩⟩

theorem commit_eq_ok {db next : Database} {success : Success} :
    commit db success = .ok next ↔
      (∀ old ∈ db.snapshots, old.id ≠ success.fresh.snapshotId) ∧
        ∃ history, recordHistory db.catalogue success.domainId success.fresh success.record
          db.history = .ok history ∧
          next = { db with snapshots := db.snapshots ++ [success.row], history := history } := by
  have unique : ((db.snapshots.all fun old => old.id != success.row.id) = true) ↔
      ∀ old ∈ db.snapshots, old.id ≠ success.fresh.snapshotId := by
    simp only [List.all_eq_true, bne_iff_ne]
    rfl
  simp only [commit, bind_eq_ok, orError_eq_ok, insertChecked_eq_some, unique]
  constructor
  · rintro ⟨_, ⟨fresh, rfl⟩, history, recorded, same⟩
    exact ⟨fresh, history, recorded, (Except.ok.inj same).symm⟩
  · rintro ⟨fresh, history, recorded, rfl⟩
    exact ⟨_, ⟨fresh, rfl⟩, history, recorded, rfl⟩

/-- The store after the migrations, with some domains. -/
def domainsOnly (catalogue : Catalogue) (domains : List DomainRow) : Database :=
  { Database.initial catalogue with domains := domains }

end Successes

section Verdicts

variable (catalogue : Catalogue) (technologyId : Uuid)

/-- The record has an observation of the technology with the status. -/
def observes (status : RuleObservationStatus) (record : SuccessfulCrawlRecord) : Bool :=
  (observedAs record.observations status).any fun state =>
    idOf catalogue state.technologySlug.1 == some technologyId

/-- Whether the record says that the domain has the technology; nothing, when the
technology is not observed or the observation is unknown. -/
def verdict (record : SuccessfulCrawlRecord) : Option Bool :=
  if observes catalogue technologyId .detected record then some true
  else if observes catalogue technologyId .confirmedAbsent record then some false
  else none

def verdictsOn (domainId : Uuid) (successes : List Success) : List (Option Bool) :=
  (successes.filter fun success => success.domainId == domainId).map fun success =>
    verdict catalogue technologyId success.record

variable {catalogue technologyId}

theorem observes_iff {status : RuleObservationStatus} {record : SuccessfulCrawlRecord} :
    observes catalogue technologyId status record = true ↔
      ∃ state ∈ observedAs record.observations status,
        idOf catalogue state.technologySlug.1 = some technologyId := by
  simp only [observes, List.any_eq_true, beq_iff_eq]

theorem verdict_eq_true {record : SuccessfulCrawlRecord} :
    verdict catalogue technologyId record = some true ↔
      observes catalogue technologyId .detected record = true := by
  unfold verdict
  split
  · rename_i detected
    simp [detected]
  · rename_i undetected
    split <;> simp [undetected]

theorem verdictsOn_concat (domainId : Uuid) (successes : List Success) (last : Success) :
    verdictsOn catalogue technologyId domainId (successes ++ [last]) =
      verdictsOn catalogue technologyId domainId successes ++
        if last.domainId = domainId then [verdict catalogue technologyId last.record] else [] := by
  unfold verdictsOn
  rw [List.filter_append, List.map_append]
  by_cases own : last.domainId = domainId
  · simp [own]
  · simp [own]

end Verdicts

section Recording

variable {catalogue : Catalogue} {domainId domain technology : Uuid} {fresh : FreshSnapshot}
  {record : SuccessfulCrawlRecord} {history next : History}

/-- A record takes from its domain what it confirms to be absent and gives it
what it detects. -/
theorem recordHistory_holds (agrees : Agrees catalogue history)
    (coherent : Coherent record.detections record.observations)
    (success : recordHistory catalogue domainId fresh record history = .ok next) :
    Holds next.current domain technology ↔
      (Holds history.current domain technology ∧
          ¬(domain = domainId ∧ observes catalogue technology .confirmedAbsent record = true)) ∨
        (domain = domainId ∧ observes catalogue technology .detected record = true) := by
  obtain ⟨_, ids, observed, previous, current, _, recorded, inserted, read, activated, _, rfl⟩ :=
    recordHistory_eq_ok success
  obtain ⟨⟨detectedCurrent, detectedChanges⟩, stored⟩ := recordDetections_eq_some recorded
  obtain ⟨⟨observedCurrent, observedChanges⟩, listed⟩ := insertObservations_eq_some inserted
  have same : observed.current = history.current := observedCurrent.trans detectedCurrent
  have before := agrees.of_same same (observedChanges.trans detectedChanges)
  obtain ⟨found, isFound, reading⟩ := previousTechnologies_eq_some domainId before.listed
  rw [Option.some.inj (isFound.symm.trans read), same] at reading
  have identified := identified_of_detected coherent stored listed
  let states := previous.map PersistedCurrentTechnology.state
  have on : (∃ state ∈ sortedBySlug (observedAs record.observations .detected),
      idOf catalogue state.technologySlug.1 = some technology) ↔
      observes catalogue technology .detected record = true := by
    rw [observes_iff]
    exact exists_mem_sortedBySlug (P := fun slug => idOf catalogue slug.1 = some technology)
  have off : (∃ state ∈ sortedBySlug (removals states record.observations),
      idOf catalogue state.technologySlug.1 = some technology) ↔
      observes catalogue technology .confirmedAbsent record = true ∧
        Holds history.current domainId technology := by
    rw [exists_mem_sortedBySlug (P := fun slug => idOf catalogue slug.1 = some technology),
      observes_iff]
    constructor
    · rintro ⟨state, member, known⟩
      obtain ⟨absent, present⟩ := List.mem_filter.mp member
      exact ⟨⟨state, absent, known⟩, (reading.wasCurrent_iff known).mp present⟩
    · rintro ⟨⟨state, absent, known⟩, held⟩
      exact ⟨state, List.mem_filter.mpr ⟨absent, (reading.wasCurrent_iff known).mpr held⟩, known⟩
  have ready : ∀ state ∈ sortedBySlug (observedAs record.observations .detected),
      Identified catalogue ids state :=
    fun state member => identified state (mem_of_mem_sortedBySlug member)
  change Holds current domain technology ↔ _
  rw [activateAll_holds ready activated, deactivateAll_holds, same, on]
  change (_ ∧ ¬(_ ∧ ∃ state ∈ sortedBySlug (removals states record.observations), _)) ∨ _ ↔ _
  rw [off]
  constructor
  · rintro (⟨held, kept⟩ | detected)
    · refine Or.inl ⟨held, ?_⟩
      rintro ⟨rfl, absent⟩
      exact kept ⟨rfl, absent, held⟩
    · exact Or.inr detected
  · rintro (⟨held, kept⟩ | detected)
    · refine Or.inl ⟨held, ?_⟩
      rintro ⟨rfl, absent, _⟩
      exact kept ⟨rfl, absent⟩
    · exact Or.inr detected

/-- The detections of a snapshot are of the technologies its record detects. -/
theorem recordHistory_detections
    (observed : ∀ detection ∈ record.detections, ∃ observation ∈ record.observations,
      observation.status = .detected ∧ observation.technologySlug = detection.technologySlug)
    (coherent : Coherent record.detections record.observations)
    (success : recordHistory catalogue domainId fresh record history = .ok next) :
    ∃ added, next.detections = history.detections ++ added ∧
      (∀ row ∈ added, row.crawlSnapshotId = fresh.snapshotId) ∧
      ∀ technology, (∃ row ∈ added, row.technologyId = technology) ↔
        observes catalogue technology .detected record = true := by
  obtain ⟨_, _, _, _, _, _, recorded, inserted, _, _, _, rfl⟩ := recordHistory_eq_ok success
  obtain ⟨added, appended, own, technologies⟩ := recordDetections_rows recorded
  refine ⟨added, (insertObservations_detections inserted).trans appended, own, ?_⟩
  intro technology
  rw [technologies, observes_iff]
  constructor
  · rintro ⟨detection, member, known⟩
    obtain ⟨observation, inObservations, status, same⟩ := observed detection member
    rw [← same] at known
    exact ⟨observation.state, mem_observedAs.mpr ⟨observation, inObservations, status, rfl⟩, known⟩
  · rintro ⟨state, member, known⟩
    obtain ⟨observation, inObservations, status, rfl⟩ := mem_observedAs.mp member
    obtain ⟨detection, inDetections, same⟩ := coherent.detected observation inObservations status
    refine ⟨detection, inDetections, ?_⟩
    rw [same]
    exact known

theorem activate_cases {snapshotId : Uuid} {capturedAt : Time} {ids : DetectionIds}
    {current after : List CurrentRow} {state : CurrentTechnology}
    (success : activate catalogue domainId snapshotId capturedAt ids current state = .ok after) :
    after = current ∨ ∃ technologyId detectionId,
      upsertCurrent domainId snapshotId capturedAt current technologyId detectionId =
        some after := by
  obtain ⟨detectionId, _, success⟩ := bind_eq_ok.mp success
  split at success
  · cases success
    exact Or.inl rfl
  · split at success
    · cases success
      exact Or.inl rfl
    · split at success
      · exact Or.inr ⟨_, detectionId, orError_eq_ok.mp success⟩
      · cases success
        exact Or.inl rfl

/-- The rule the facts about single rows are proved by: what a deletion and an
upsert keep, a record keeps. -/
theorem recordHistory_current {P : List CurrentRow → Prop}
    (deleted : ∀ current state, P current → P (deactivate catalogue domainId current state))
    (upserted : ∀ current technologyId detectionId after,
      upsertCurrent domainId fresh.snapshotId record.snapshot.capturedAt current technologyId
        detectionId = some after → P current → P after)
    (success : recordHistory catalogue domainId fresh record history = .ok next)
    (start : P history.current) : P next.current := by
  obtain ⟨_, ids, _, _, current, _, recorded, inserted, _, activated, _, rfl⟩ :=
    recordHistory_eq_ok success
  obtain ⟨⟨detectedCurrent, _⟩, _⟩ := recordDetections_eq_some recorded
  obtain ⟨⟨observedCurrent, _⟩, _⟩ := insertObservations_eq_some inserted
  rw [observedCurrent, detectedCurrent] at activated
  have remaining (states : List CurrentTechnology) :
      P (states.foldl (deactivate catalogue domainId) history.current) := by
    induction states using List.reverseRecOn with
    | nil => exact start
    | append_singleton front last ih =>
        rw [List.foldl_append]
        exact deleted _ last ih
  refine foldlM_invariant ?_ activated (remaining _)
  intro before state after one held
  rcases activate_cases one with rfl | ⟨technologyId, detectionId, success⟩
  · exact held
  · exact upserted before technologyId detectionId after success held

end Recording

section Restriction

variable {catalogue : Catalogue} {domainId snapshotId : Uuid} {capturedAt : Time}
  {history next fewer : History}

/-- The detections and the observations of the one are among those of the other. -/
structure Within (fewer history : History) : Prop where
  detections : fewer.detections ⊆ history.detections
  observations : fewer.observations ⊆ history.observations

theorem Within.refl (history : History) : Within history history :=
  ⟨List.Subset.refl _, List.Subset.refl _⟩

theorem Within.trans {middle : History} (first : Within fewer middle)
    (second : Within middle history) : Within fewer history :=
  ⟨List.Subset.trans first.detections second.detections,
    List.Subset.trans first.observations second.observations⟩

theorem subset_concat {α : Type} {fewer rows : List α} (subset : fewer ⊆ rows) (row : α) :
    fewer ++ [row] ⊆ rows ++ [row] :=
  List.append_subset.mpr ⟨List.subset_append_of_subset_left [row] subset,
    List.subset_append_right rows [row]⟩

theorem insertDetection_restrict {id : Uuid} {detection : Detection}
    (within : Within fewer history)
    (success : insertDetection catalogue snapshotId capturedAt history id detection = some next) :
    ∃ after, insertDetection catalogue snapshotId capturedAt fewer id detection = some after ∧
      Within after next := by
  simp only [insertDetection, Option.bind_eq_bind, Option.bind_eq_some_iff, Option.some.injEq,
    insertChecked_eq_some] at success ⊢
  obtain ⟨found, isFound, rows, ⟨admitted, rfl⟩, rfl⟩ := success
  refine ⟨_, ⟨found, isFound, _, ⟨?_, rfl⟩, rfl⟩, subset_concat within.detections _,
    within.observations⟩
  rw [admitsDetection, List.all_eq_true] at admitted ⊢
  exact fun old member => admitted old (within.detections member)

/-- What is stored beside some rows is stored beside fewer of them. -/
theorem recordDetections_restrict {fresh : Nat → Uuid} {ids stored : DetectionIds} {n : Nat}
    {detections : List Detection} (within : Within fewer history)
    (success : recordDetections catalogue snapshotId capturedAt fresh history ids n detections =
      some (next, stored)) :
    ∃ after, recordDetections catalogue snapshotId capturedAt fresh fewer ids n detections =
        some (after, stored) ∧ Within after next := by
  induction detections generalizing history fewer ids n with
  | nil =>
      cases success
      exact ⟨fewer, rfl, within⟩
  | cons detection rest ih =>
      simp only [recordDetections, Option.bind_eq_bind, Option.bind_eq_some_iff] at success ⊢
      obtain ⟨mid, inserted, success⟩ := success
      obtain ⟨after, one, grown⟩ := insertDetection_restrict within inserted
      obtain ⟨last, others, done⟩ := ih grown success
      exact ⟨last, ⟨after, one, others⟩, done⟩

theorem insertObservations_restrict {observations : List RuleObservation}
    (within : Within fewer history)
    (success : observations.foldlM (insertObservation catalogue snapshotId capturedAt) history =
      some next) :
    ∃ after, observations.foldlM (insertObservation catalogue snapshotId capturedAt) fewer =
        some after ∧ Within after next := by
  induction observations generalizing history fewer with
  | nil =>
      cases success
      exact ⟨fewer, rfl, within⟩
  | cons observation rest ih =>
      simp only [List.foldlM_cons, Option.bind_eq_bind, Option.bind_eq_some_iff] at success ⊢
      obtain ⟨mid, inserted, success⟩ := success
      have one : ∃ after, insertObservation catalogue snapshotId capturedAt fewer observation =
          some after ∧ Within after mid := by
        simp only [insertObservation, Option.bind_eq_bind, Option.bind_eq_some_iff,
          Option.some.injEq, insertChecked_eq_some] at inserted ⊢
        obtain ⟨found, isFound, rows, ⟨admitted, rfl⟩, rfl⟩ := inserted
        refine ⟨_, ⟨found, isFound, _, ⟨?_, rfl⟩, rfl⟩, within.detections,
          subset_concat within.observations _⟩
        rw [List.all_eq_true] at admitted ⊢
        exact fun old member => admitted old (within.observations member)
      obtain ⟨after, first, grown⟩ := one
      obtain ⟨last, others, done⟩ := ih grown success
      exact ⟨last, ⟨after, first, others⟩, done⟩

theorem recordDetections_within {fresh : Nat → Uuid} {ids stored : DetectionIds} {n : Nat}
    {detections : List Detection}
    (success : recordDetections catalogue snapshotId capturedAt fresh history ids n detections =
      some (next, stored)) : Within history next := by
  induction detections generalizing history ids n with
  | nil =>
      cases success
      exact Within.refl _
  | cons detection rest ih =>
      simp only [recordDetections, insertDetection, Option.bind_eq_bind, Option.bind_eq_some_iff,
        Option.some.injEq, insertChecked_eq_some] at success
      obtain ⟨mid, ⟨_, _, _, ⟨_, rfl⟩, rfl⟩, success⟩ := success
      have later := ih success
      exact ⟨List.Subset.trans (List.subset_append_left _ _) later.detections, later.observations⟩

theorem insertObservations_within {observations : List RuleObservation}
    (success : observations.foldlM (insertObservation catalogue snapshotId capturedAt) history =
      some next) : Within history next := by
  induction observations generalizing history with
  | nil =>
      cases success
      exact Within.refl _
  | cons observation rest ih =>
      simp only [List.foldlM_cons, insertObservation, Option.bind_eq_bind, Option.bind_eq_some_iff,
        Option.some.injEq, insertChecked_eq_some] at success
      obtain ⟨mid, ⟨_, _, _, ⟨_, rfl⟩, rfl⟩, success⟩ := success
      have later := ih success
      exact ⟨later.detections, List.Subset.trans (List.subset_append_left _ _) later.observations⟩

/-- A record only adds detections and observations. -/
theorem recordHistory_within {fresh : FreshSnapshot} {record : SuccessfulCrawlRecord}
    (success : recordHistory catalogue domainId fresh record history = .ok next) :
    Within history next := by
  obtain ⟨_, _, _, _, _, _, recorded, inserted, _, _, _, rfl⟩ := recordHistory_eq_ok success
  have grown := (recordDetections_within recorded).trans (insertObservations_within inserted)
  exact ⟨grown.detections, grown.observations⟩

/-- The rows of the domain were first observed no later than the time. -/
def FirstBy (domainId : Uuid) (capturedAt : Time) (current : List CurrentRow) : Prop :=
  ∀ row ∈ current, row.domainId = domainId → row.firstObservedAt ≤ capturedAt

theorem upsertCurrent_firstBy (snapshotId technologyId detectionId : Uuid)
    {current : List CurrentRow} (early : FirstBy domainId capturedAt current) :
    ∃ after, upsertCurrent domainId snapshotId capturedAt current technologyId detectionId =
      some after ∧ FirstBy domainId capturedAt after := by
  unfold upsertCurrent
  dsimp only
  split
  · refine ⟨_, updateChecked_eq_some.mpr ⟨?_, rfl⟩, ?_⟩
    · intro row member selected
      have own : row.domainId = domainId := by
        rw [Bool.and_eq_true] at selected
        exact beq_iff_eq.mp selected.1
      exact ⟨rfl, decide_eq_true (early row member own)⟩
    · intro row member own
      rcases mem_updateWhere_cases member with ⟨old, _⟩ | ⟨old, stored, selected, rfl⟩
      · exact early row old own
      · exact early old stored own
  · refine ⟨_, rfl, ?_⟩
    intro row member own
    rcases List.mem_append.mp member with old | new
    · exact early row old own
    · rw [List.mem_singleton.mp new]

theorem activateAll_firstBy (snapshotId : Uuid) {ids : DetectionIds}
    {states : List CurrentTechnology} {current : List CurrentRow}
    (identified : ∀ state ∈ states, Identified catalogue ids state)
    (early : FirstBy domainId capturedAt current) :
    ∃ after, states.foldlM (activate catalogue domainId snapshotId capturedAt ids) current =
      .ok after := by
  induction states generalizing current with
  | nil => exact ⟨current, rfl⟩
  | cons state rest ih =>
      obtain ⟨⟨id, listed⟩, detectionId, found⟩ := identified state List.mem_cons_self
      obtain ⟨mid, upserted, still⟩ := upsertCurrent_firstBy snapshotId id detectionId early
      obtain ⟨after, done⟩ := ih
        (fun other member => identified other (List.mem_cons_of_mem state member)) still
      refine ⟨after, ?_⟩
      rw [List.foldlM_cons, activate_eq listed found, upserted]
      exact done

/-- A record that is stored beside some rows is stored beside fewer of them. -/
theorem recordHistory_restrict {fresh : FreshSnapshot} {record : SuccessfulCrawlRecord}
    (agrees : Agrees catalogue fewer)
    (coherent : Coherent record.detections record.observations) (within : Within fewer history)
    (early : FirstBy domainId record.snapshot.capturedAt fewer.current)
    (success : recordHistory catalogue domainId fresh record history = .ok next) :
    ∃ after, recordHistory catalogue domainId fresh record fewer = .ok after ∧
      Within after next := by
  obtain ⟨_, ids, _, _, _, _, recorded, inserted, _, _, _, rfl⟩ := recordHistory_eq_ok success
  obtain ⟨detected, recorded, grown⟩ := recordDetections_restrict within recorded
  obtain ⟨observed, inserted, whole⟩ := insertObservations_restrict grown inserted
  obtain ⟨⟨detectedCurrent, detectedChanges⟩, stored⟩ := recordDetections_eq_some recorded
  obtain ⟨⟨observedCurrent, observedChanges⟩, listed⟩ := insertObservations_eq_some inserted
  have same : observed.current = fewer.current := observedCurrent.trans detectedCurrent
  have before := agrees.of_same same (observedChanges.trans detectedChanges)
  have identified := identified_of_detected coherent stored listed
  obtain ⟨previous, read, reading⟩ := previousTechnologies_eq_some domainId before.listed
  let transition :=
    deriveProjection (previous.map PersistedCurrentTechnology.state) record.observations
  obtain ⟨added, logged, _, _⟩ := derivedChanges_inserted fresh.snapshotId
    record.snapshot.capturedAt observed.changes reading identified (rfl : transition = _)
  have remaining : FirstBy domainId record.snapshot.capturedAt
      (transition.deactivate.foldl (deactivate catalogue domainId) observed.current) := by
    have kept (states : List CurrentTechnology) :
        states.foldl (deactivate catalogue domainId) observed.current ⊆ observed.current := by
      induction states using List.reverseRecOn with
      | nil => exact List.Subset.refl _
      | append_singleton front last ih =>
          rw [List.foldl_append]
          exact List.Subset.trans (List.filter_subset_self _) ih
    intro row member
    have old := kept _ member
    rw [same] at old
    exact early row old
  obtain ⟨current, activated⟩ := activateAll_firstBy fresh.snapshotId
    (fun state member => identified state (mem_of_mem_sortedBySlug member)) remaining
  refine ⟨{ observed with current := current, changes := observed.changes ++ added }, ?_,
    whole.detections, whole.observations⟩
  exact bind_eq_ok.mpr ⟨(detected, ids), orError_eq_ok.mpr recorded,
    bind_eq_ok.mpr ⟨observed, orError_eq_ok.mpr inserted,
      bind_eq_ok.mpr ⟨previous, orError_eq_ok.mpr read,
        bind_eq_ok.mpr ⟨current, activated, bind_eq_ok.mpr ⟨_, logged, rfl⟩⟩⟩⟩⟩

end Restriction

section Run

variable {regexes : RegexCrate} {catalogue : Catalogue} {domains : List DomainRow}
  {done : List Success} {db next : Database} {success : Success}

theorem Evaluated.observed {record : SuccessfulCrawlRecord} (evaluated : Evaluated regexes record) :
    ∀ detection ∈ record.detections, ∃ observation ∈ record.observations,
      observation.status = .detected ∧ observation.technologySlug = detection.technologySlug := by
  obtain ⟨parsed, rules, evaluation, _, success, detections, observations⟩ := evaluated
  rw [detections, observations]
  exact evaluateActive_observed success

/-- What the tables hold after the successes. -/
structure Recorded (catalogue : Catalogue) (domains : List DomainRow) (done : List Success)
    (db : Database) : Prop where
  sameCatalogue : db.catalogue = catalogue
  sameDomains : db.domains = domains
  snapshots : db.snapshots = done.map Success.row
  agrees : Agrees catalogue db.history
  held : ∀ domainId technologyId, Holds db.history.current domainId technologyId ↔
    standing (verdictsOn catalogue technologyId domainId done) = true
  detected : ∀ success ∈ done, ∀ technologyId, db.hasDetection technologyId success.row = true ↔
    verdict catalogue technologyId success.record = some true
  owned : ∀ row ∈ db.history.detections, ∃ success ∈ done,
    row.crawlSnapshotId = success.fresh.snapshotId
  paired : (db.history.current.map fun row => (row.domainId, row.technologyId)).Nodup
  first : ∀ row ∈ db.history.current, ∃ success ∈ done, success.domainId = row.domainId ∧
    success.capturedAt = row.firstObservedAt

theorem hasDetection_iff {technologyId : Uuid} {snapshot : SnapshotRow} :
    db.hasDetection technologyId snapshot = true ↔ ∃ row ∈ db.history.detections,
      row.crawlSnapshotId = snapshot.id ∧ row.technologyId = technologyId := by
  simp only [Database.hasDetection, List.any_eq_true, Bool.and_eq_true, beq_iff_eq]

theorem recorded_start : Recorded catalogue domains [] (domainsOnly catalogue domains) where
  sameCatalogue := rfl
  sameDomains := rfl
  snapshots := rfl
  agrees := (initial_agrees catalogue).agrees
  held := by
    intro domainId technologyId
    simp [Holds, domainsOnly, Database.initial, verdictsOn, standing]
  detected := by simp
  owned := by simp [domainsOnly, Database.initial]
  paired := List.nodup_nil
  first := by simp [domainsOnly, Database.initial]

/-- A success on its domain decides what it observes and leaves the rest. -/
theorem Recorded.held_commit (recorded : Recorded catalogue domains done db) {history : History}
    (coherent : Coherent success.record.detections success.record.observations)
    (stored : recordHistory catalogue success.domainId success.fresh success.record db.history =
      .ok history) (domainId technologyId : Uuid) :
    Holds history.current domainId technologyId ↔
      standing (verdictsOn catalogue technologyId domainId (done ++ [success])) = true := by
  rw [recordHistory_holds recorded.agrees coherent stored, recorded.held, verdictsOn_concat]
  by_cases own : domainId = success.domainId
  · rw [if_pos own.symm, standing_concat]
    by_cases detected : observes catalogue technologyId .detected success.record = true
    · simp [verdict, detected, own]
    · by_cases absent : observes catalogue technologyId .confirmedAbsent success.record = true
      · simp [verdict, detected, absent, own]
      · simp [verdict, detected, absent]
  · rw [if_neg (Ne.symm own), List.append_nil]
    simp [own]

/-- The snapshot is new, so that the detections of the others stay theirs. -/
theorem Recorded.detected_commit (recorded : Recorded catalogue domains done db)
    {added : List DetectionRow}
    (unused : ∀ old ∈ db.snapshots, old.id ≠ success.fresh.snapshotId)
    (appended : next.history.detections = db.history.detections ++ added)
    (own : ∀ row ∈ added, row.crawlSnapshotId = success.fresh.snapshotId)
    (technologies : ∀ technologyId, (∃ row ∈ added, row.technologyId = technologyId) ↔
      observes catalogue technologyId .detected success.record = true) :
    ∀ other ∈ done ++ [success], ∀ technologyId, next.hasDetection technologyId other.row = true ↔
      verdict catalogue technologyId other.record = some true := by
  have apart : ∀ other ∈ done, other.fresh.snapshotId ≠ success.fresh.snapshotId := by
    intro other member
    apply unused other.row
    rw [recorded.snapshots]
    exact List.mem_map_of_mem member
  intro other member technologyId
  rw [hasDetection_iff, appended]
  rcases List.mem_append.mp member with old | new
  · rw [← recorded.detected other old, hasDetection_iff]
    constructor
    · rintro ⟨row, stored, snapshot, technology⟩
      rcases List.mem_append.mp stored with before | later
      · exact ⟨row, before, snapshot, technology⟩
      · exact absurd (snapshot.symm.trans (own row later)) (apart other old)
    · rintro ⟨row, stored, rest⟩
      exact ⟨row, List.mem_append_left added stored, rest⟩
  · rw [List.mem_singleton.mp new, verdict_eq_true, ← technologies]
    constructor
    · rintro ⟨row, stored, snapshot, technology⟩
      rcases List.mem_append.mp stored with before | later
      · obtain ⟨earlier, inDone, same⟩ := recorded.owned row before
        exact absurd (same.symm.trans snapshot) (apart earlier inDone)
      · exact ⟨row, later, technology⟩
    · rintro ⟨row, later, technology⟩
      exact ⟨row, List.mem_append_right _ later, own row later, technology⟩

theorem upsertCurrent_keys {domainId snapshotId technologyId detectionId : Uuid} {capturedAt : Time}
    {current after : List CurrentRow}
    (upserted : upsertCurrent domainId snapshotId capturedAt current technologyId detectionId =
      some after)
    (paired : (current.map fun row => (row.domainId, row.technologyId)).Nodup) :
    (after.map fun row => (row.domainId, row.technologyId)).Nodup := by
  unfold upsertCurrent at upserted
  dsimp only at upserted
  split at upserted
  · obtain ⟨_, rfl⟩ := updateChecked_eq_some.mp upserted
    rw [updateWhere_map _ fun _ => by rfl]
    exact paired
  · rename_i absent
    cases upserted
    apply nodup_map_concat paired
    intro old member same
    apply absent
    rw [List.any_eq_true]
    exact ⟨old, member, by simpa using same⟩

theorem Recorded.commit (recorded : Recorded catalogue domains done db)
    (evaluated : Evaluated regexes success.record) (committed : commit db success = .ok next) :
    Recorded catalogue domains (done ++ [success]) next := by
  obtain ⟨unused, history, stored, rfl⟩ := commit_eq_ok.mp committed
  rw [recorded.sameCatalogue] at stored
  have coherent := evaluated.coherent
  have agrees : Agrees catalogue history := by
    rcases recordHistory_cases recorded.agrees coherent with refused | ⟨_, kept, agrees⟩
    · cases stored.symm.trans refused
    · cases stored.symm.trans kept
      exact agrees
  obtain ⟨added, appended, own, technologies⟩ :=
    recordHistory_detections evaluated.observed coherent stored
  constructor
  · exact recorded.sameCatalogue
  · exact recorded.sameDomains
  · simp [recorded.snapshots]
  · exact agrees
  · exact recorded.held_commit coherent stored
  · exact recorded.detected_commit unused appended own technologies
  · intro row member
    change row ∈ history.detections at member
    rw [appended] at member
    rcases List.mem_append.mp member with old | new
    · obtain ⟨earlier, inDone, same⟩ := recorded.owned row old
      exact ⟨earlier, List.mem_append_left _ inDone, same⟩
    · exact ⟨success, by simp, own row new⟩
  · refine recordHistory_current (P := fun current =>
      (current.map fun row => (row.domainId, row.technologyId)).Nodup) ?_ ?_ stored recorded.paired
    · intro current state paired
      exact paired.sublist (List.filter_sublist.map _)
    · intro current technologyId detectionId after upserted paired
      exact upsertCurrent_keys upserted paired
  · refine recordHistory_current (P := fun current => ∀ row ∈ current, ∃ other ∈ done ++ [success],
      other.domainId = row.domainId ∧ other.capturedAt = row.firstObservedAt) ?_ ?_ stored ?_
    · intro current state first row member
      exact first row (List.mem_of_mem_filter member)
    · intro current technologyId detectionId after upserted first row member
      unfold upsertCurrent at upserted
      dsimp only at upserted
      split at upserted
      · obtain ⟨_, rfl⟩ := updateChecked_eq_some.mp upserted
        rcases mem_updateWhere_cases member with ⟨old, _⟩ | ⟨old, inCurrent, _, rfl⟩
        · exact first row old
        · exact first old inCurrent
      · cases upserted
        rcases List.mem_append.mp member with old | new
        · exact first row old
        · rw [List.mem_singleton.mp new]
          exact ⟨success, by simp, rfl, rfl⟩
    · intro row member
      obtain ⟨earlier, inDone, facts⟩ := recorded.first row member
      exact ⟨earlier, List.mem_append_left _ inDone, facts⟩

theorem commitAll_recorded (evaluated : ∀ success ∈ done, Evaluated regexes success.record)
    (committed : commitAll (domainsOnly catalogue domains) done = .ok db) :
    Recorded catalogue domains done db := by
  induction done using List.reverseRecOn generalizing db with
  | nil =>
      cases committed
      exact recorded_start
  | append_singleton front last ih =>
      obtain ⟨mid, before, committed⟩ := commitAll_concat.mp committed
      have recorded := ih (fun other member => evaluated other (List.mem_append_left _ member)) before
      exact recorded.commit (evaluated last (by simp)) committed

end Run

section Calls

/-- Whatever the calls of the store have recorded, some successes record. -/
theorem reached_commits (crate : UrlCrate) (catalogue : Catalogue) (calls : List Call) :
    let db := reached crate catalogue calls
    ∃ successes same, commitAll (domainsOnly catalogue []) successes = .ok same ∧
      same.catalogue = db.catalogue ∧ same.snapshots = db.snapshots ∧ same.history = db.history ∧
      ∀ success ∈ successes, ∃ call ∈ calls, call.records success.record := by
  intro db
  induction calls using List.reverseRecOn with
  | nil => exact ⟨[], domainsOnly catalogue [], rfl, rfl, rfl, rfl, by simp⟩
  | append_singleton front call ih =>
      obtain ⟨successes, same, committed, catalogues, snapshots, histories, origin⟩ := ih
      have keys : Keys (reached crate catalogue front) :=
        run_invariant (exec_keys crate) _ front (initial_keys catalogue)
      have one : db = exec crate (reached crate catalogue front) call := by
        simp only [db, reached, run_append]
        rfl
      have earlier : ∀ success ∈ successes, ∃ other ∈ front ++ [call],
          other.records success.record := by
        intro success member
        obtain ⟨other, inFront, recorded⟩ := origin success member
        exact ⟨other, List.mem_append_left [call] inFront, recorded⟩
      rw [one]
      rcases exec_records keys.policyKeys call with quiet |
        ⟨attempt, _, record, fresh, recorded, success⟩
      · exact ⟨successes, same, committed, catalogues.trans quiet.catalogue.symm,
          snapshots.trans quiet.snapshots.symm, histories.trans quiet.history.symm, earlier⟩
      · obtain ⟨_, admitted, _, _, history, stored, next⟩ := persistSuccess_eq_ok success
        rw [← catalogues, ← histories] at stored
        have unused : ∀ old ∈ same.snapshots, old.id ≠ fresh.snapshotId := by
          intro old member
          simp only [admitsSnapshot, Bool.and_eq_true, List.all_eq_true, bne_iff_ne] at admitted
          rw [snapshots] at member
          exact (admitted.2 old member).1
        let latest : Success := ⟨attempt, record, fresh⟩
        have last : commit same latest = .ok { same with
            snapshots := same.snapshots ++ [latest.row]
            history := history } := commit_eq_ok.mpr ⟨unused, history, stored, rfl⟩
        refine ⟨successes ++ [latest], _, commitAll_concat.mpr ⟨same, committed, last⟩,
          ?_, ?_, ?_, ?_⟩
        · rw [next]
          exact catalogues
        · rw [next, snapshots]
          rfl
        · rw [next]
        · intro other member
          rcases List.mem_append.mp member with old | new
          · exact earlier other old
          · rw [List.mem_singleton.mp new]
            exact ⟨call, by simp, recorded⟩

end Calls

section Rebuilt

variable {regexes : RegexCrate} {catalogue : Catalogue} {domains : List DomainRow}
  {successes : List Success} {db : Database} {technologyId : Uuid}

/-- The snapshots of each domain are captured one after another. -/
def Increasing (successes : List Success) : Prop :=
  successes.Pairwise fun earlier later =>
    earlier.domainId = later.domainId → earlier.capturedAt < later.capturedAt

instance (successes : List Success) : Decidable (Increasing successes) :=
  inferInstanceAs (Decidable (List.Pairwise _ _))

def capturedBefore (cutoff : Time) (successes : List Success) : List Success :=
  successes.filter fun success => decide (success.capturedAt < cutoff)

/-- The successes before a time can be recorded without the later ones. -/
theorem commitAll_capturedBefore (cutoff : Time)
    (evaluated : ∀ success ∈ successes, Evaluated regexes success.record)
    (increasing : Increasing successes)
    (committed : commitAll (domainsOnly catalogue domains) successes = .ok db) :
    ∃ before, commitAll (domainsOnly catalogue domains) (capturedBefore cutoff successes) =
      .ok before ∧ before.snapshots ⊆ db.snapshots ∧ Within before.history db.history := by
  induction successes using List.reverseRecOn generalizing db with
  | nil =>
      cases committed
      exact ⟨_, rfl, List.Subset.refl _, List.Subset.refl _, List.Subset.refl _⟩
  | append_singleton front last ih =>
      obtain ⟨mid, earlier, committed⟩ := commitAll_concat.mp committed
      have evaluatedFront : ∀ success ∈ front, Evaluated regexes success.record :=
        fun success member => evaluated success (List.mem_append_left _ member)
      obtain ⟨ordered, _, latest⟩ := List.pairwise_append.mp increasing
      obtain ⟨before, restricted, snapshots, within⟩ := ih evaluatedFront ordered earlier
      have recorded : Recorded catalogue domains (capturedBefore cutoff front) before :=
        commitAll_recorded (fun success member => evaluatedFront success
          (List.mem_of_mem_filter member)) restricted
      have whole := (commitAll_recorded evaluatedFront earlier).sameCatalogue
      obtain ⟨unused, history, stored, rfl⟩ := commit_eq_ok.mp committed
      rw [whole] at stored
      unfold capturedBefore at restricted recorded ⊢
      rw [List.filter_append]
      by_cases early : last.capturedAt < cutoff
      · have firstBy : FirstBy last.domainId last.capturedAt before.history.current := by
          intro row member own
          obtain ⟨success, kept, domain, first⟩ := recorded.first row member
          rw [← first]
          exact le_of_lt (latest success (List.mem_of_mem_filter kept) last (by simp)
            (domain.trans own))
        obtain ⟨after, recorded', grown⟩ := recordHistory_restrict recorded.agrees
          (evaluated last (by simp)).coherent within firstBy stored
        rw [List.filter_cons_of_pos (by simpa using early), List.filter_nil]
        rw [← recorded.sameCatalogue] at recorded'
        exact ⟨_, commitAll_concat.mpr ⟨before, restricted, commit_eq_ok.mpr
          ⟨fun old member => unused old (snapshots member), after, recorded', rfl⟩⟩,
          subset_concat snapshots last.row, grown⟩
      · rw [List.filter_cons_of_neg (by simpa using early), List.filter_nil, List.append_nil]
        exact ⟨before, restricted, List.subset_append_of_subset_left _ snapshots,
          within.trans (recordHistory_within stored)⟩

/-- The table has one row of a domain and a technology. -/
theorem adoptionCount_eq
    (paired : (db.history.current.map fun row => (row.domainId, row.technologyId)).Nodup) :
    db.adoptionCount technologyId = (domainsWith technologyId db.history.current).card := by
  let rows := db.history.current.filter fun row => row.technologyId == technologyId
  have pairs : rows.map (fun row => (row.domainId, row.technologyId)) =
      (rows.map CurrentRow.domainId).map fun domainId => (domainId, technologyId) := by
    rw [List.map_map]
    apply List.map_congr_left
    intro row member
    have own := (List.mem_filter.mp member).2
    rw [beq_iff_eq] at own
    rw [own]
    rfl
  have distinct : (rows.map CurrentRow.domainId).Nodup := by
    apply List.Nodup.of_map fun domainId => (domainId, technologyId)
    rw [← pairs]
    exact paired.sublist (List.filter_sublist.map _)
  rw [Database.adoptionCount, domainsWith, List.toFinset_card_of_nodup distinct, List.length_map,
    List.countP_eq_length_filter]

/-- The domains whose latest snapshot has a detection of the technology. -/
def domainsObserved (db : Database) (cutoff : Time) (technologyId : Uuid) : Finset Uuid :=
  (((latestSnapshots db cutoff).filter (db.hasDetection technologyId)).map
    SnapshotRow.domainId).toFinset

theorem observedCount_eq (cutoff : Time) :
    observedCount db cutoff technologyId = (domainsObserved db cutoff technologyId).card := by
  rw [observedCount, domainsObserved, List.card_toFinset]

/-- The snapshots of the query are those of the successes before the cutoff. -/
theorem Recorded.snapshotsBefore (recorded : Recorded catalogue domains successes db)
    (active : ∀ success ∈ successes, domains.any (fun domain =>
      domain.id == success.domainId && domain.isActive) = true) (cutoff : Time) :
    snapshotsBefore db cutoff = (capturedBefore cutoff successes).map Success.row := by
  unfold Store.snapshotsBefore capturedBefore
  rw [recorded.snapshots, recorded.sameDomains, List.filter_map]
  congr 1
  apply List.filter_congr
  intro success member
  have kept := active success member
  change (domains.any (fun domain => domain.id == success.domainId && domain.isActive) &&
    decide (success.capturedAt < cutoff)) = _
  rw [kept, Bool.true_and]

theorem Recorded.latest (recorded : Recorded catalogue domains successes db)
    (active : ∀ success ∈ successes, domains.any (fun domain =>
      domain.id == success.domainId && domain.isActive) = true)
    (increasing : Increasing successes) (cutoff : Time) (domainId : Uuid) :
    greatest SnapshotRow.capturedAt ((Store.snapshotsBefore db cutoff).filter fun row =>
        row.domainId == domainId) =
      (((capturedBefore cutoff successes).filter fun success =>
        success.domainId == domainId).getLast?).map Success.row := by
  have rows : (Store.snapshotsBefore db cutoff).filter (fun row => row.domainId == domainId) =
      ((capturedBefore cutoff successes).filter fun success =>
        success.domainId == domainId).map Success.row := by
    rw [recorded.snapshotsBefore active, List.filter_map]
    rfl
  have ordered : ((((capturedBefore cutoff successes).filter fun success =>
      success.domainId == domainId).map Success.row).map SnapshotRow.capturedAt).Pairwise
        (· < ·) := by
    rw [List.map_map, List.pairwise_map]
    have kept := (increasing.filter fun success =>
      decide (success.capturedAt < cutoff)).filter fun success => success.domainId == domainId
    refine kept.imp_of_mem ?_
    intro earlier later inEarlier inLater order
    have first := beq_iff_eq.mp (List.mem_filter.mp inEarlier).2
    have second := beq_iff_eq.mp (List.mem_filter.mp inLater).2
    exact order (first.trans second.symm)
  rw [rows, greatest_eq_getLast? ordered, List.getLast?_map]

theorem Recorded.mem_domainsObserved (recorded : Recorded catalogue domains successes db)
    (active : ∀ success ∈ successes, domains.any (fun domain =>
      domain.id == success.domainId && domain.isActive) = true)
    (increasing : Increasing successes) (cutoff : Time) {domainId : Uuid} :
    domainId ∈ domainsObserved db cutoff technologyId ↔
      (verdictsOn catalogue technologyId domainId (capturedBefore cutoff successes)).getLast? =
        some (some true) := by
  let own := (capturedBefore cutoff successes).filter fun success => success.domainId == domainId
  have last : (verdictsOn catalogue technologyId domainId
      (capturedBefore cutoff successes)).getLast? = some (some true) ↔
      ∃ success, own.getLast? = some success ∧
        verdict catalogue technologyId success.record = some true := by
    rw [verdictsOn, List.getLast?_map, Option.map_eq_some_iff]
  have stored : ∀ success, own.getLast? = some success → success ∈ successes ∧
      success.domainId = domainId := by
    intro success found
    obtain ⟨kept, same⟩ := List.mem_filter.mp (List.mem_of_getLast? found)
    exact ⟨List.mem_of_mem_filter kept, beq_iff_eq.mp same⟩
  rw [last, domainsObserved, List.mem_toFinset, List.mem_map]
  constructor
  · rintro ⟨snapshot, member, rfl⟩
    obtain ⟨isLatest, detected⟩ := List.mem_filter.mp member
    obtain ⟨other, _, found⟩ := List.mem_filterMap.mp isLatest
    rw [recorded.latest active increasing, Option.map_eq_some_iff] at found
    obtain ⟨success, isLast, rfl⟩ := found
    obtain ⟨kept, same⟩ := List.mem_filter.mp (List.mem_of_getLast? isLast)
    have named : success.row.domainId = other := beq_iff_eq.mp same
    subst named
    exact ⟨success, isLast,
      (recorded.detected success (List.mem_of_mem_filter kept) technologyId).mp detected⟩
  · rintro ⟨success, isLast, positive⟩
    obtain ⟨member, same⟩ := stored success isLast
    refine ⟨success.row, List.mem_filter.mpr ⟨List.mem_filterMap.mpr ⟨domainId, ?_, ?_⟩,
      (recorded.detected success member technologyId).mpr positive⟩, same⟩
    · rw [List.mem_dedup, recorded.snapshotsBefore active, List.map_map]
      have kept := List.mem_of_mem_filter (List.mem_of_getLast? isLast)
      exact List.mem_map.mpr ⟨success, kept, same⟩
    · rw [recorded.latest active increasing, isLast]
      rfl

end Rebuilt

/-- In every run of successes on active domains, each captured after the last
of its domain, the counts rebuilt for a day are those captured from the state
of its end, except of a technology that was created later or that some domain
carried over, and except on the last date there is. -/
theorem adoption_rebuilt_iff (regexes : RegexCrate) (catalogue : Catalogue)
    (domains : List DomainRow) (successes : List Success) (db : Database)
    (evaluated : ∀ success ∈ successes, Evaluated regexes success.record)
    (active : ∀ success ∈ successes, domains.any (fun domain =>
      domain.id == success.domainId && domain.isActive) = true)
    (increasing : Increasing successes)
    (committed : commitAll (domainsOnly catalogue domains) successes = .ok db) (day : Int) :
    let kept := capturedBefore (midnight (day + 1)) successes
    ∃ before, commitAll (domainsOnly catalogue domains) kept = .ok before ∧
      ∀ technology ∈ catalogue.technologies, ∀ createdAt daily rebuiltAt capturedAt,
        (∃ rows result, rebuildAdoptionHistory db createdAt daily day day rebuiltAt =
            (rows, .ok result) ∧
          countOn rows day technology.id =
            countOn (captureDailyAdoption before [] day capturedAt).1 day technology.id) ↔
        day < lastDate ∧ createdAt technology.id < midnight (day + 1) ∧
          ∀ domainId, ¬CarriedOver (verdictsOn catalogue technology.id domainId kept) := by
  intro kept
  obtain ⟨before, restricted, _⟩ :=
    commitAll_capturedBefore (midnight (day + 1)) evaluated increasing committed
  refine ⟨before, restricted, ?_⟩
  intro technology member createdAt daily rebuiltAt capturedAt
  have recorded : Recorded catalogue domains successes db := commitAll_recorded evaluated committed
  have recordedBefore : Recorded catalogue domains kept before :=
    commitAll_recorded (fun success inKept => evaluated success (List.mem_of_mem_filter inKept))
      restricted
  have listed : technology ∈ db.catalogue.technologies := by rwa [recorded.sameCatalogue]
  have listedBefore : technology ∈ before.catalogue.technologies := by
    rwa [recordedBefore.sameCatalogue]
  have observed (domainId : Uuid) :
      domainId ∈ domainsObserved db (midnight (day + 1)) technology.id ↔
        (verdictsOn catalogue technology.id domainId kept).getLast? = some (some true) :=
    recorded.mem_domainsObserved active increasing _
  have current (domainId : Uuid) : domainId ∈ domainsWith technology.id before.history.current ↔
      standing (verdictsOn catalogue technology.id domainId kept) = true := by
    rw [← recordedBefore.held, domainsWith]
    simp [Holds, and_assoc, and_comm]
  have subset : domainsObserved db (midnight (day + 1)) technology.id ⊆
      domainsWith technology.id before.history.current := by
    intro domainId last
    rw [current, standing_iff]
    exact Or.inl ((observed domainId).mp last)
  have counts : observedCount db (midnight (day + 1)) technology.id =
      before.adoptionCount technology.id ↔
        ∀ domainId, ¬CarriedOver (verdictsOn catalogue technology.id domainId kept) := by
    rw [observedCount_eq, adoptionCount_eq recordedBefore.paired]
    constructor
    · intro same domainId carried
      have equal := Finset.eq_of_subset_of_card_le subset same.ge
      have held : domainId ∈ domainsWith technology.id before.history.current := by
        rw [current, standing_iff]
        exact Or.inr carried
      rw [← equal, observed] at held
      obtain ⟨front, split⟩ := List.getLast?_eq_some_iff.mp held
      rw [split] at carried
      cases carried.last
    · intro none
      have equal : domainsObserved db (midnight (day + 1)) technology.id =
          domainsWith technology.id before.history.current := by
        ext domainId
        rw [observed, current, standing_iff, or_iff_left (none domainId)]
      rw [equal]
  rw [countOn_captured listedBefore, rebuild_day, ← counts]
  by_cases inside : day < lastDate
  · simp only [if_pos inside, Prod.mk.injEq, Except.ok.injEq]
    constructor
    · rintro ⟨rows, result, ⟨rfl, _⟩, same⟩
      rw [countOn_rebuilt listed] at same
      by_cases created : createdAt technology.id < midnight (day + 1)
      · rw [if_pos created, Option.some.injEq] at same
        exact ⟨inside, created, same⟩
      · rw [if_neg created] at same
        cases same
    · rintro ⟨_, created, same⟩
      refine ⟨_, _, ⟨rfl, rfl⟩, ?_⟩
      rw [countOn_rebuilt listed, if_pos created, same]
  · simp only [if_neg inside, Prod.mk.injEq]
    constructor
    · rintro ⟨_, _, ⟨_, failed⟩, _⟩
      cases failed
    · rintro ⟨isInside, _⟩
      exact absurd isInside inside

section Sites

/-- A crawl of the first domain; the number keeps the identifiers apart. -/
def siteSuccess (number : Nat) (capturedAt : Time) (evaluation : DetectionEvaluation) : Success where
  attempt := queuedAttempt (number + 1) (newJobWithCorrelation 1 (number + 2) (number + 3)) 1 0 0
  record := siteRecord capturedAt evaluation
  fresh := ⟨number + 4, fun n => number + 5 + n⟩

def siteDomains : List DomainRow := [⟨1, "example.com".toList, none⟩]

theorem migratedSite_rebuilt :
    let seen := (siteEvaluation "WordPress 6.8" 1).get wordPress_evaluated
    let after := (siteEvaluation "Drupal 11" 1).get drupal_evaluated
    let successes := [siteSuccess 100 6 seen, siteSuccess 200 10 after]
    ∃ db, commitAll (domainsOnly twoSystems siteDomains) successes = .ok db ∧
      ∃ before, commitAll (domainsOnly twoSystems siteDomains)
          (capturedBefore (midnight 1) successes) = .ok before ∧
        ∀ technology ∈ twoSystems.technologies, ∃ rows result,
          rebuildAdoptionHistory db (fun _ => 0) [] 0 0 11 = (rows, .ok result) ∧
            countOn rows 0 technology.id =
              countOn (captureDailyAdoption before [] 0 11).1 0 technology.id := by
  intro seen after successes
  have evaluated : ∀ success ∈ successes, Evaluated noRegexes success.record := by
    simp only [successes, List.forall_mem_cons]
    exact ⟨siteRecord_evaluated (Option.some_get _).symm 6,
      siteRecord_evaluated (Option.some_get _).symm 10, by simp⟩
  have facts : (commitAll (domainsOnly twoSystems siteDomains) successes).toOption.isSome = true ∧
      Increasing successes ∧ (∀ success ∈ successes, siteDomains.any (fun domain =>
        domain.id == success.domainId && domain.isActive) = true) ∧
      ∀ technology ∈ twoSystems.technologies, ∀ success ∈ successes,
        verdict twoSystems technology.id success.record ≠ none := by
    decide +kernel
  obtain ⟨committed, increasing, active, decided⟩ := facts
  obtain ⟨db, stored⟩ := Option.isSome_iff_exists.mp committed
  obtain ⟨before, restricted, rebuilt⟩ := adoption_rebuilt_iff noRegexes twoSystems siteDomains
    successes db evaluated active increasing (toOption_eq_some.mp stored) 0
  refine ⟨db, toOption_eq_some.mp stored, before, restricted, ?_⟩
  intro technology member
  refine (rebuilt technology member (fun _ => 0) [] 11 11).mpr ⟨by decide, by decide, ?_⟩
  intro domainId
  apply not_carriedOver
  intro found listed
  obtain ⟨success, kept, rfl⟩ := List.mem_map.mp listed
  exact decided technology member success (List.mem_of_mem_filter (List.mem_of_mem_filter kept))

/-- The same rules on a page of which nothing was captured. -/
def missingPage : Option DetectionEvaluation :=
  (evaluateActive noRegexes { evidence := [], availabilityOf := [] }
    [generatorRule "wordpress" 1, generatorRule "drupal" 1]).toOption

theorem missingPage_isSome : missingPage.isSome = true := by
  decide +kernel

theorem missingPage_evaluated {evaluation : DetectionEvaluation}
    (success : missingPage = some evaluation) (capturedAt : Time) :
    Evaluated noRegexes (siteRecord capturedAt evaluation) := by
  have apart : Slug.parse "wordpress".toList ≠ Slug.parse "drupal".toList := by decide
  exact ⟨_, _, evaluation, by simpa [onePerTechnology, generatorRule] using apart,
    toOption_eq_some.mp success, rfl, rfl⟩

/-- The technology is still current after a page that says nothing of it, but
the rebuilt count does not have it. -/
theorem missingPage_not_rebuilt :
    let seen := (siteEvaluation "WordPress 6.8" 1).get wordPress_evaluated
    let unseen := missingPage.get missingPage_isSome
    let successes := [siteSuccess 100 6 seen, siteSuccess 200 10 unseen]
    (∀ success ∈ successes, Evaluated noRegexes success.record) ∧ Increasing successes ∧
      (∀ success ∈ successes, siteDomains.any (fun domain =>
        domain.id == success.domainId && domain.isActive) = true) ∧
      capturedBefore (midnight 1) successes = successes ∧
      ∃ db, commitAll (domainsOnly twoSystems siteDomains) successes = .ok db ∧
        countOn (rebuildAdoptionHistory db (fun _ => 0) [] 0 0 11).1 0 11 = some 0 ∧
        countOn (captureDailyAdoption db [] 0 11).1 0 11 = some 1 := by
  intro seen unseen successes
  have evaluated : ∀ success ∈ successes, Evaluated noRegexes success.record := by
    simp only [successes, List.forall_mem_cons]
    exact ⟨siteRecord_evaluated (Option.some_get _).symm 6,
      missingPage_evaluated (Option.some_get _).symm 10, by simp⟩
  have facts : Increasing successes ∧ (∀ success ∈ successes, siteDomains.any (fun domain =>
        domain.id == success.domainId && domain.isActive) = true) ∧
      (∀ success ∈ successes, decide (success.capturedAt < midnight 1) = true) ∧
      ((commitAll (domainsOnly twoSystems siteDomains) successes).toOption.map fun db =>
        (countOn (rebuildAdoptionHistory db (fun _ => 0) [] 0 0 11).1 0 11,
          countOn (captureDailyAdoption db [] 0 11).1 0 11)) = some (some 0, some 1) := by
    decide +kernel
  obtain ⟨increasing, active, early, committed⟩ := facts
  obtain ⟨db, stored, counts⟩ := Option.map_eq_some_iff.mp committed
  obtain ⟨rebuilt, captured⟩ := Prod.mk.inj counts
  exact ⟨evaluated, increasing, active, List.filter_eq_self.mpr early, db,
    toOption_eq_some.mp stored, rebuilt, captured⟩

end Sites

end TechAtlas.Technologies
