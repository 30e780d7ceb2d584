import TechAtlas.Reprocessing.Serial

set_option autoImplicit false

/- What the check of `admin_audit_events` makes of the replays. It leaves out the kind
under which a new run is audited, so that no run is ever committed. -/
namespace TechAtlas.Reprocessing

open Library TechAtlas.Detector TechAtlas.Store TechAtlas.Storage

section Starts

variable {tables : Tables}

/-- The answer to a call whose key no run has, where the audit event of a new run is
refused. -/
def StartCall.refusal (call : StartCall) (tables : Tables) : AdminOperationError :=
  if call.isKeyed && call.isFormed then
    if (call.version tables).isSome then .unavailable else .notFound
  else .validation

/-- The check refuses the audit event of a run, and nothing of any run is there. -/
structure Tables.Idle (tables : Tables) : Prop where
  refused : tables.auditKinds.contains "detection_reprocessing_run" = false
  runs : tables.runs = []
  items : tables.items = []
  observations : tables.observations = []
  detections : tables.detections = []
  evidence : tables.evidence = []
  versionChanges : tables.versionChanges = []
  auditEvents : tables.auditEvents = []

theorem empty_idle {kinds : List String}
    (refused : kinds.contains "detection_reprocessing_run" = false) : (Tables.empty kinds).Idle :=
  ⟨refused, rfl, rfl, rfl, rfl, rfl, rfl, rfl⟩

/-- The run, its items and its event are inserted together or not at all. -/
theorem Tables.Idle.result (idle : tables.Idle) (call : StartCall) :
    call.result tables = .error (call.refusal tables) := by
  have absent : (tables.runs.find? fun run => run.idempotencyKey == call.key) = none := by
    rw [idle.runs]
    rfl
  have unaudited : (!(btrim call.actorSubject).isEmpty &&
      tables.auditKinds.contains "detection_reprocessing_run") = false := by
    rw [idle.refused, Bool.and_false]
  have noted : call.result tables = (do
      require (call.isKeyed && !(trim call.actorSubject).isEmpty) .validation
      require (decide (call.ruleVersion < 2 ^ 15)) .validation
      let _ ← orError (call.version tables) .notFound
      .error .unavailable) := by
    unfold StartCall.result startReprocessing
    refine congrArg _ (funext fun _ => congrArg _ (funext fun _ => congrArg _ (funext fun _ => ?_)))
    split
    next existing found => exact absurd (absent.symm.trans found) (Option.some_ne_none existing).symm
    next =>
      dsimp only
      cases decide ((itemsFor tables.nextId call.now (tables.nextId + 1)
        tables.snapshots).length < 2 ^ 31) with
      | false => rfl
      | true =>
          change (require (!(btrim call.actorSubject).isEmpty &&
            tables.auditKinds.contains "detection_reprocessing_run") _ >>= _) = _
          rw [unaudited]
          rfl
  rw [noted, StartCall.refusal, StartCall.isFormed]
  cases call.isKeyed <;> cases (trim call.actorSubject).isEmpty <;>
    cases decide (call.ruleVersion < 2 ^ 15) <;> cases call.version tables <;> rfl

theorem Tables.Idle.start (idle : tables.Idle) (call : StartCall) :
    tables.step (.start call) = tables :=
  step_start_of_error (idle.result call)

theorem Tables.Idle.publish (idle : tables.Idle) (technologyId : Uuid)
    (rule : ActiveDetectionRule) : (tables.publish technologyId rule).Idle :=
  ⟨idle.refused, idle.runs, idle.items, idle.observations, idle.detections, idle.evidence,
    idle.versionChanges, idle.auditEvents⟩

theorem Tables.Idle.capture (idle : tables.Idle) (snapshot : SnapshotRow)
    (artifact : Option RawArtifactMetadata) : (tables.capture snapshot artifact).Idle := by
  unfold Tables.capture
  split
  · exact ⟨idle.refused, idle.runs, idle.items, idle.observations, idle.detections,
      idle.evidence, idle.versionChanges, idle.auditEvents⟩
  · exact idle

/-- There is nothing to claim. -/
theorem Tables.Idle.claim (idle : tables.Idle) (now : Time) :
    claimNextReprocessingItem tables now = .ok (tables, none) := by
  have none : tables.nextDue now = none := by
    rw [Tables.nextDue, idle.items]
    rfl
  rw [claimNextReprocessingItem, none]

end Starts

section Runs

/-- No worker has an item. -/
structure World.Idle (world : World) : Prop where
  tables : world.tables.Idle
  live : world.live = []

theorem World.Idle.record {world : World} (idle : world.Idle) (itemId : Uuid)
    (call : WorkItem → Option Tables) : world.record itemId call = world := by
  rw [World.record, idle.live]
  rfl

theorem World.Idle.step {world : World} (maxAttempts : Nat) (idle : world.Idle) (event : Event) :
    (world.step maxAttempts event).Idle := by
  cases event with
  | publish technologyId rule => exact ⟨idle.tables.publish technologyId rule, idle.live⟩
  | capture snapshot artifact => exact ⟨idle.tables.capture snapshot artifact, idle.live⟩
  | start call =>
      refine ⟨?_, idle.live⟩
      change (world.tables.step (.start call)).Idle
      rw [idle.tables.start]
      exact idle.tables
  | claim now =>
      dsimp only [World.step]
      rw [idle.tables.claim]
      exact idle
  | crash itemId =>
      refine ⟨idle.tables, ?_⟩
      change world.live.filter _ = []
      rw [idle.live]
      rfl
  | succeed itemId evaluation completedAt committed =>
      dsimp only [World.step]
      rw [idle.record]
      exact idle
  | fail itemId summary retryAt completedAt committed =>
      dsimp only [World.step]
      rw [idle.record]
      exact idle

/-- Nothing is ever stranded: under the check nothing is ever queued. -/
theorem reprocessing_neverStranded (maxAttempts : Nat) (events : List Event) :
    NeverStranded maxAttempts (World.after resourceKinds maxAttempts events) := by
  have idle : (World.after resourceKinds maxAttempts events).Idle :=
    run_invariant (P := World.Idle) (fun _ event idle => idle.step maxAttempts event)
      (World.empty resourceKinds) events ⟨empty_idle rfl, rfl⟩
  constructor
  · rw [idle.tables.items]
    exact fun _ absent => absurd absent List.not_mem_nil
  · rw [idle.tables.runs]
    exact fun _ absent => absurd absent List.not_mem_nil

/-- No worker has an item, and no transaction is open. -/
structure Database.Idle (db : Database) : Prop where
  tables : db.tables.Idle
  live : db.live = []
  sessions : db.sessions = []

theorem Database.Idle.step {db : Database} (idle : db.Idle) (action : Action) :
    (db.step action).Idle := by
  cases action with
  | publish technologyId rule =>
      exact ⟨idle.tables.publish technologyId rule, idle.live, idle.sessions⟩
  | capture snapshot artifact =>
      exact ⟨idle.tables.capture snapshot artifact, idle.live, idle.sessions⟩
  | start call =>
      refine ⟨?_, idle.live, idle.sessions⟩
      change (db.tables.step (.start call)).Idle
      rw [idle.tables.start]
      exact idle.tables
  | claim now =>
      dsimp only [Database.step]
      rw [idle.tables.claim]
      exact idle
  | lose itemId =>
      refine ⟨idle.tables, ?_, ?_⟩
      · change db.live.filter _ = []
        rw [idle.live]
        rfl
      · change db.sessions.filter _ = []
        rw [idle.sessions]
        rfl
  | begin itemId report completedAt =>
      dsimp only [Database.step]
      rw [idle.live]
      exact idle
  | execute itemId =>
      dsimp only [Database.step]
      rw [idle.sessions]
      exact idle

theorem after_idle (kinds : List String)
    (refused : kinds.contains "detection_reprocessing_run" = false) (actions : List Action) :
    (Database.after kinds actions).Idle :=
  run_invariant (P := Database.Idle) (fun _ action idle => idle.step action)
    (Database.empty kinds) actions ⟨empty_idle refused, rfl, rfl⟩

/-- Every run whose items are all done is finalized. -/
def Tables.RunsFinalized (tables : Tables) : Prop :=
  ∀ own ∈ tables.runs, (∀ item ∈ tables.items, item.runId = own.id →
    item.status.isPending = false) → tables.Finalized own

theorem reprocessing_finalized (actions : List Action) :
    (Database.after resourceKinds actions).tables.RunsFinalized := by
  have idle := after_idle resourceKinds rfl actions
  intro own member
  rw [idle.tables.runs] at member
  cases member

/-- Under the check every start is refused, whatever happened before, and nothing of a run is
ever written. -/
theorem start_refused (actions : List Action) (call : StartCall) :
    (Database.after resourceKinds actions).tables.Idle ∧
      call.result (Database.after resourceKinds actions).tables =
        .error (call.refusal (Database.after resourceKinds actions).tables) := by
  have idle := (after_idle resourceKinds rfl actions).tables
  exact ⟨idle, idle.result call⟩

end Runs

end TechAtlas.Reprocessing
