import TechAtlas.Reprocessing.Repository

set_option autoImplicit false

/- Starting replays: over any history of the store an idempotency key stands for
one run of one rule version, with one work item for each snapshot there was. -/
namespace TechAtlas.Reprocessing

open Library TechAtlas.Detector TechAtlas.Store TechAtlas.Storage

section History

/-- The arguments of `start_reprocessing`. -/
structure StartCall where
  ruleSlug : Text
  ruleVersion : Nat
  idempotencyKey : Text
  actorSubject : Text
  now : Time

def StartCall.key (call : StartCall) : Text := trim call.idempotencyKey

def StartCall.isKeyed (call : StartCall) : Bool :=
  !call.key.isEmpty && decide (utf8Length call.key ≤ 255)

/-- An actor who has a name, and a version that the column can hold. -/
def StartCall.isFormed (call : StartCall) : Bool :=
  !(trim call.actorSubject).isEmpty && decide (call.ruleVersion < 2 ^ 15)

def StartCall.result (call : StartCall) (tables : Tables) :
    Except AdminOperationError (Tables × Uuid) :=
  startReprocessing tables call.ruleSlug call.ruleVersion call.idempotencyKey call.actorSubject
    call.now

/-- The published version that the call names. -/
def StartCall.version (call : StartCall) (tables : Tables) : Option PublishedVersion :=
  tables.versions.find? fun version =>
    version.rule.ruleSlug == call.ruleSlug && version.rule.version == call.ruleVersion

/-- Everything that is committed to the tables of the replay. -/
inductive Step
  | publish (technologyId : Uuid) (rule : ActiveDetectionRule)
  | capture (snapshot : SnapshotRow) (artifact : Option RawArtifactMetadata)
  | start (call : StartCall)
  | claim (now : Time)
  | succeed (item : WorkItem) (evaluation : ReprocessingEvaluation) (completedAt : Time)
  | fail (itemId : Uuid) (summary : Text) (retryAt : Time) (terminal : Bool) (completedAt : Time)

/-- A call that fails is rolled back. -/
def Tables.step (tables : Tables) : Step → Tables
  | .publish technologyId rule => tables.publish technologyId rule
  | .capture snapshot artifact => tables.capture snapshot artifact
  | .start call =>
      match call.result tables with
      | .ok (after, _) => after
      | .error _ => tables
  | .claim now =>
      match claimNextReprocessingItem tables now with
      | .ok (after, _) => after
      | .error _ => tables
  | .succeed item evaluation completedAt =>
      (recordReprocessingSuccess tables item evaluation completedAt).getD tables
  | .fail itemId summary retryAt terminal completedAt =>
      (recordReprocessingFailure tables itemId summary retryAt terminal completedAt).getD tables

/-- The state that a history leads to, where `admin_audit_events` admits the kinds. -/
def Tables.after (kinds : List String) (steps : List Step) : Tables :=
  run Tables.step (Tables.empty kinds) steps

/-- The run and the snapshot of each work item. -/
def Tables.fanOut (tables : Tables) : List (Uuid × Uuid) :=
  tables.items.map fun item => (item.runId, item.crawlSnapshotId)

def Tables.snapshotsOf (tables : Tables) (runId : Uuid) : List Uuid :=
  (tables.fanOut.filter fun pair => pair.1 == runId).map Prod.snd

def Tables.auditsOf (tables : Tables) (runId : Uuid) : Nat :=
  tables.auditEvents.countP fun event => event.resourceId == runId

/-- What is never changed of a run. -/
def RunRow.identity (run : RunRow) : Uuid × Text × Uuid :=
  (run.id, run.idempotencyKey, run.detectionRuleVersionId)

def Tables.runIdentities (tables : Tables) : List (Uuid × Text × Uuid) :=
  tables.runs.map RunRow.identity

end History

section Invariant

/-- Identifiers are drawn once, and a key belongs to one run. -/
structure Tables.WellFormed (tables : Tables) : Prop where
  versions : (tables.versions.map PublishedVersion.id).Nodup
  versionsDrawn : ∀ version ∈ tables.versions, version.id < tables.nextId
  snapshots : (tables.snapshots.map SnapshotRow.id).Nodup
  snapshotsDrawn : ∀ snapshot ∈ tables.snapshots, snapshot.id < tables.nextId
  keys : (tables.runIdentities.map fun run => run.2.1).Nodup
  runsDrawn : ∀ run ∈ tables.runIdentities, run.1 < tables.nextId
  itemsDrawn : ∀ pair ∈ tables.fanOut, pair.1 < tables.nextId
  auditsDrawn : ∀ event ∈ tables.auditEvents, event.resourceId < tables.nextId

/-- What a later state keeps: nothing published and no run is taken back, and the
runs there were have the items and the events they had. -/
structure Grows (before after : Tables) : Prop where
  versions : before.versions <+: after.versions
  runs : before.runIdentities <+: after.runIdentities
  items : ∀ id < before.nextId, after.snapshotsOf id = before.snapshotsOf id
  audits : ∀ id < before.nextId, after.auditsOf id = before.auditsOf id
  nextId : before.nextId ≤ after.nextId

theorem Grows.refl (tables : Tables) : Grows tables tables :=
  ⟨List.prefix_refl _, List.prefix_refl _, fun _ _ => rfl, fun _ _ => rfl, le_refl _⟩

theorem Grows.trans {first second third : Tables} (early : Grows first second)
    (late : Grows second third) : Grows first third where
  versions := early.versions.trans late.versions
  runs := early.runs.trans late.runs
  items id drawn :=
    (late.items id (lt_of_lt_of_le drawn early.nextId)).trans (early.items id drawn)
  audits id drawn :=
    (late.audits id (lt_of_lt_of_le drawn early.nextId)).trans (early.audits id drawn)
  nextId := le_trans early.nextId late.nextId

/-- A step that leaves what the invariant speaks of as it is. -/
structure Untouched (before after : Tables) : Prop where
  versions : after.versions = before.versions
  snapshots : after.snapshots = before.snapshots
  runs : after.runIdentities = before.runIdentities
  items : after.fanOut = before.fanOut
  audits : after.auditEvents = before.auditEvents
  nextId : before.nextId ≤ after.nextId

theorem Untouched.refl (tables : Tables) : Untouched tables tables :=
  ⟨rfl, rfl, rfl, rfl, rfl, le_refl _⟩

theorem Untouched.trans {first second third : Tables} (early : Untouched first second)
    (late : Untouched second third) : Untouched first third where
  versions := late.versions.trans early.versions
  snapshots := late.snapshots.trans early.snapshots
  runs := late.runs.trans early.runs
  items := late.items.trans early.items
  audits := late.audits.trans early.audits
  nextId := le_trans early.nextId late.nextId

theorem Untouched.grows {before after : Tables} (untouched : Untouched before after) :
    Grows before after where
  versions := by rw [untouched.versions]
  runs := by rw [untouched.runs]
  items id _ := by rw [Tables.snapshotsOf, Tables.snapshotsOf, untouched.items]
  audits id _ := by rw [Tables.auditsOf, Tables.auditsOf, untouched.audits]
  nextId := untouched.nextId

theorem Untouched.wellFormed {before after : Tables} (untouched : Untouched before after)
    (formed : before.WellFormed) : after.WellFormed := by
  have later := untouched.nextId
  constructor
  · rw [untouched.versions]
    exact formed.versions
  · rw [untouched.versions]
    exact fun version member => lt_of_lt_of_le (formed.versionsDrawn version member) later
  · rw [untouched.snapshots]
    exact formed.snapshots
  · rw [untouched.snapshots]
    exact fun snapshot member => lt_of_lt_of_le (formed.snapshotsDrawn snapshot member) later
  · rw [untouched.runs]
    exact formed.keys
  · rw [untouched.runs]
    exact fun run member => lt_of_lt_of_le (formed.runsDrawn run member) later
  · rw [untouched.items]
    exact fun pair member => lt_of_lt_of_le (formed.itemsDrawn pair member) later
  · rw [untouched.audits]
    exact fun event member => lt_of_lt_of_le (formed.auditsDrawn event member) later

end Invariant

section Workers

variable {tables after : Tables}

theorem updateRuns_untouched (tables : Tables) (selected : RunRow → Bool)
    (change : RunRow → RunRow) (keeps : ∀ run, (change run).identity = run.identity) :
    Untouched tables { tables with runs := updateWhere selected change tables.runs } where
  versions := rfl
  snapshots := rfl
  runs := updateWhere_map RunRow.identity keeps tables.runs
  items := rfl
  audits := rfl
  nextId := le_refl _

theorem updateItems_untouched (tables : Tables) (selected : WorkItemRow → Bool)
    (change : WorkItemRow → WorkItemRow)
    (keeps : ∀ item, ((change item).runId, (change item).crawlSnapshotId) =
      (item.runId, item.crawlSnapshotId)) :
    Untouched tables { tables with items := updateWhere selected change tables.items } where
  versions := rfl
  snapshots := rfl
  runs := rfl
  items := updateWhere_map (fun item : WorkItemRow => (item.runId, item.crawlSnapshotId)) keeps
    tables.items
  audits := rfl
  nextId := le_refl _

theorem claim_untouched {now : Time} {item : Option WorkItem}
    (success : claimNextReprocessingItem tables now = .ok (after, item)) :
    Untouched tables after := by
  unfold claimNextReprocessingItem at success
  split at success
  next =>
    cases success
    exact .refl tables
  next due _ =>
    obtain ⟨_, _, success⟩ := bind_eq_ok.mp success
    obtain ⟨_, _, success⟩ := bind_eq_ok.mp success
    obtain ⟨_, _, success⟩ := bind_eq_ok.mp success
    cases success
    have claimed := updateItems_untouched tables (fun row => row.id == due.id)
      (WorkItemRow.claimedAtTime now) fun _ => rfl
    exact claimed.trans (updateRuns_untouched _ _ (RunRow.startedAtTime now) fun _ => rfl)

theorem refreshRun_untouched {runId : Uuid} {now : Time}
    (success : refreshRun tables runId now = some after) : Untouched tables after := by
  obtain ⟨updated, update, same⟩ := Option.bind_eq_some_iff.mp success
  unfold Tables.updateRun at update
  split at update
  · cases update
    have own := updateRuns_untouched tables (fun run => run.id == runId)
      (RunRow.refreshed (tables.countItems runId) now) fun _ => rfl
    have changes : ∀ tables : Tables, Untouched tables (tables.insertVersionChanges runId) :=
      fun tables => ⟨rfl, rfl, rfl, rfl, rfl, le_refl _⟩
    split at same
    · cases same
      exact own.trans (changes _)
    · cases same
      exact own
  · cases update

theorem success_untouched {item : WorkItem} {evaluation : ReprocessingEvaluation}
    {completedAt : Time}
    (success : recordReprocessingSuccess tables item evaluation completedAt = some after) :
    Untouched tables after := by
  obtain ⟨observed, observation, success⟩ := Option.bind_eq_some_iff.mp success
  obtain ⟨detected, detection, success⟩ := Option.bind_eq_some_iff.mp success
  have first : Untouched tables observed := by
    obtain ⟨rows, _, rfl⟩ := Option.map_eq_some_iff.mp observation
    exact ⟨rfl, rfl, rfl, rfl, rfl, le_refl _⟩
  have second : Untouched observed detected := by
    unfold Tables.insertDetection at detection
    split at detection
    · cases detection
      exact .refl observed
    · obtain ⟨_, _, detection⟩ := Option.bind_eq_some_iff.mp detection
      obtain ⟨_, _, detection⟩ := Option.bind_eq_some_iff.mp detection
      cases detection
      exact ⟨rfl, rfl, rfl, rfl, rfl, Nat.le_succ _⟩
  have third : Untouched detected
      (detected.updateItem item.id (WorkItemRow.succeededAtTime completedAt)) :=
    updateItems_untouched detected _ _ fun _ => rfl
  exact ((first.trans second).trans third).trans (refreshRun_untouched success)

theorem failure_untouched {itemId : Uuid} {summary : Text} {retryAt : Time} {terminal : Bool}
    {completedAt : Time} (success : recordReprocessingFailure tables itemId summary retryAt
      terminal completedAt = some after) : Untouched tables after := by
  obtain ⟨item, _, success⟩ := Option.bind_eq_some_iff.mp success
  have updated : Untouched tables (tables.updateItem itemId
      (if terminal then WorkItemRow.deadLetteredAt (boundedSummary summary) completedAt
        else WorkItemRow.requeuedAt (boundedSummary summary) retryAt completedAt)) := by
    apply updateItems_untouched
    intro item
    cases terminal <;> rfl
  exact updated.trans (refreshRun_untouched success)

end Workers

section Growth

variable {tables : Tables}

theorem publish_grows (technologyId : Uuid) (rule : ActiveDetectionRule) :
    Grows tables (tables.publish technologyId rule) where
  versions := List.prefix_append _ _
  runs := List.prefix_refl _
  items _ _ := rfl
  audits _ _ := rfl
  nextId := Nat.le_succ _

theorem publish_wellFormed (formed : tables.WellFormed) (technologyId : Uuid)
    (rule : ActiveDetectionRule) : (tables.publish technologyId rule).WellFormed := by
  have later : tables.nextId ≤ tables.nextId + 1 := Nat.le_succ _
  constructor
  · exact nodup_map_concat formed.versions fun old member =>
      (formed.versionsDrawn old member).ne
  · intro version member
    rcases List.mem_append.mp member with old | new
    · exact lt_of_lt_of_le (formed.versionsDrawn version old) later
    · rw [List.mem_singleton.mp new]
      exact Nat.lt_succ_self _
  · exact formed.snapshots
  · exact fun snapshot member => lt_of_lt_of_le (formed.snapshotsDrawn snapshot member) later
  · exact formed.keys
  · exact fun run member => lt_of_lt_of_le (formed.runsDrawn run member) later
  · exact fun pair member => lt_of_lt_of_le (formed.itemsDrawn pair member) later
  · exact fun event member => lt_of_lt_of_le (formed.auditsDrawn event member) later

theorem capture_grows (snapshot : SnapshotRow) (artifact : Option RawArtifactMetadata) :
    Grows tables (tables.capture snapshot artifact) := by
  unfold Tables.capture
  split
  · exact ⟨List.prefix_refl _, List.prefix_refl _, fun _ _ => rfl, fun _ _ => rfl,
      Nat.le_succ _⟩
  · exact .refl tables

theorem capture_wellFormed (formed : tables.WellFormed) (snapshot : SnapshotRow)
    (artifact : Option RawArtifactMetadata) : (tables.capture snapshot artifact).WellFormed := by
  have later : tables.nextId ≤ tables.nextId + 1 := Nat.le_succ _
  unfold Tables.capture
  split
  · constructor
    · exact formed.versions
    · exact fun version member => lt_of_lt_of_le (formed.versionsDrawn version member) later
    · exact nodup_map_concat formed.snapshots fun old member =>
        (formed.snapshotsDrawn old member).ne
    · intro row member
      rcases List.mem_append.mp member with old | new
      · exact lt_of_lt_of_le (formed.snapshotsDrawn row old) later
      · rw [List.mem_singleton.mp new]
        exact Nat.lt_succ_self _
    · exact formed.keys
    · exact fun run member => lt_of_lt_of_le (formed.runsDrawn run member) later
    · exact fun pair member => lt_of_lt_of_le (formed.itemsDrawn pair member) later
    · exact fun event member => lt_of_lt_of_le (formed.auditsDrawn event member) later
  · exact formed

end Growth

section Creation

variable {tables : Tables} {call : StartCall} {versionId : Uuid}

/-- What a call commits that finds its key unused. -/
def StartCall.created (call : StartCall) (tables : Tables) (versionId : Uuid) : Tables :=
  let items := itemsFor tables.nextId call.now (tables.nextId + 1) tables.snapshots
  { tables with
    runs := tables.runs ++ [requestedRun tables.nextId versionId call.actorSubject call.key
      items.length call.now]
    items := tables.items ++ items
    auditEvents := tables.auditEvents ++ [requestedEvent call.actorSubject tables.nextId]
    nextId := tables.nextId + 1 + items.length }

theorem itemsFor_fanOut (runId : Uuid) (now : Time) (id : Uuid) (snapshots : List SnapshotRow) :
    (itemsFor runId now id snapshots).map (fun item => (item.runId, item.crawlSnapshotId)) =
      snapshots.map fun snapshot => (runId, snapshot.id) := by
  induction snapshots generalizing id with
  | nil => rfl
  | cons snapshot rest ih =>
      simp only [itemsFor, List.map_cons, ih]
      rfl

theorem itemsFor_length (runId : Uuid) (now : Time) (id : Uuid) (snapshots : List SnapshotRow) :
    (itemsFor runId now id snapshots).length = snapshots.length := by
  have pairs := congrArg List.length (itemsFor_fanOut runId now id snapshots)
  rwa [List.length_map, List.length_map] at pairs

theorem created_fanOut : (call.created tables versionId).fanOut =
    tables.fanOut ++ tables.snapshots.map fun snapshot => (tables.nextId, snapshot.id) := by
  rw [Tables.fanOut, StartCall.created, List.map_append, itemsFor_fanOut]
  rfl

theorem created_runIdentities : (call.created tables versionId).runIdentities =
    tables.runIdentities ++ [(tables.nextId, call.key, versionId)] := by
  simp [Tables.runIdentities, StartCall.created, RunRow.identity, requestedRun]

theorem created_auditsOf (id : Uuid) : (call.created tables versionId).auditsOf id =
    tables.auditsOf id + if tables.nextId = id then 1 else 0 := by
  simp [Tables.auditsOf, StartCall.created, requestedEvent, List.countP_append, List.countP_cons]

theorem created_later : tables.nextId < (call.created tables versionId).nextId :=
  Nat.lt_of_lt_of_le (Nat.lt_succ_self _) (Nat.le_add_right _ _)

theorem created_grows : Grows tables (call.created tables versionId) where
  versions := List.prefix_refl _
  runs := by
    rw [created_runIdentities]
    exact List.prefix_append _ _
  items id drawn := by
    rw [Tables.snapshotsOf, created_fanOut, List.filter_append, List.map_append]
    simp [Tables.snapshotsOf, drawn.ne']
  audits id drawn := by
    rw [created_auditsOf, if_neg drawn.ne', Nat.add_zero]
  nextId := created_later.le

/-- The new run has an item for each snapshot and none besides. -/
theorem created_snapshotsOf (formed : tables.WellFormed) :
    (call.created tables versionId).snapshotsOf tables.nextId =
      tables.snapshots.map SnapshotRow.id := by
  have none : tables.fanOut.filter (fun pair => pair.1 == tables.nextId) = [] := by
    rw [List.filter_eq_nil_iff]
    intro pair member same
    exact (formed.itemsDrawn pair member).ne (beq_iff_eq.mp same)
  have all : (tables.snapshots.map fun snapshot => (tables.nextId, snapshot.id)).filter
      (fun pair => pair.1 == tables.nextId) =
      tables.snapshots.map fun snapshot => (tables.nextId, snapshot.id) := by
    rw [List.filter_eq_self]
    intro pair member
    obtain ⟨snapshot, _, rfl⟩ := List.mem_map.mp member
    exact beq_self_eq_true _
  rw [Tables.snapshotsOf, created_fanOut, List.filter_append, none, all, List.nil_append,
    List.map_map]
  rfl

theorem created_audited (formed : tables.WellFormed) :
    (call.created tables versionId).auditsOf tables.nextId = 1 := by
  have none : tables.auditsOf tables.nextId = 0 := by
    rw [Tables.auditsOf, List.countP_eq_zero]
    intro event member same
    exact (formed.auditsDrawn event member).ne (beq_iff_eq.mp same)
  rw [created_auditsOf, none, if_pos rfl]

theorem created_wellFormed (formed : tables.WellFormed)
    (unused : ∀ run ∈ tables.runIdentities, run.2.1 ≠ call.key) :
    (call.created tables versionId).WellFormed := by
  have later : tables.nextId < (call.created tables versionId).nextId := created_later
  constructor
  · exact formed.versions
  · exact fun version member => lt_trans (formed.versionsDrawn version member) later
  · exact formed.snapshots
  · exact fun snapshot member => lt_trans (formed.snapshotsDrawn snapshot member) later
  · rw [created_runIdentities]
    exact nodup_map_concat formed.keys unused
  · intro run member
    rw [created_runIdentities] at member
    rcases List.mem_append.mp member with old | new
    · exact lt_trans (formed.runsDrawn run old) later
    · rw [List.mem_singleton.mp new]
      exact later
  · intro pair member
    rw [created_fanOut] at member
    rcases List.mem_append.mp member with old | new
    · exact lt_trans (formed.itemsDrawn pair old) later
    · obtain ⟨snapshot, _, rfl⟩ := List.mem_map.mp new
      exact later
  · intro event member
    rcases List.mem_append.mp member with old | new
    · exact lt_trans (formed.auditsDrawn event old) later
    · rw [List.mem_singleton.mp new]
      exact later

end Creation

section Starts

variable {tables after : Tables} {call : StartCall} {id : Uuid}

/-- A successful call either finds the run that has its key, which is of the
version it names, or creates the run. -/
theorem result_cases (success : call.result tables = .ok (after, id)) :
    ∃ version, call.version tables = some version ∧
      ((after = tables ∧ (id, call.key, version.id) ∈ tables.runIdentities) ∨
        ((∀ run ∈ tables.runIdentities, run.2.1 ≠ call.key) ∧ id = tables.nextId ∧
          after = call.created tables version.id ∧ tables.snapshots.length < 2 ^ 31)) := by
  obtain ⟨_, _, success⟩ := bind_eq_ok.mp success
  obtain ⟨_, _, success⟩ := bind_eq_ok.mp success
  obtain ⟨version, named, success⟩ := bind_eq_ok.mp success
  refine ⟨version, orError_eq_ok.mp named, ?_⟩
  split at success
  next existing found =>
    obtain ⟨_, same, success⟩ := bind_eq_ok.mp success
    obtain ⟨member, key⟩ := find?_eq_some_mem found
    cases success
    refine .inl ⟨rfl, List.mem_map.mpr ⟨existing, member, ?_⟩⟩
    rw [RunRow.identity, beq_iff_eq.mp key, beq_iff_eq.mp (require_eq_ok.mp same)]
    rfl
  next absent =>
    obtain ⟨_, bounded, success⟩ := bind_eq_ok.mp success
    obtain ⟨_, _, success⟩ := bind_eq_ok.mp success
    cases success
    refine .inr ⟨?_, rfl, rfl, ?_⟩
    · intro run member same
      obtain ⟨row, stored, rfl⟩ := List.mem_map.mp member
      exact List.find?_eq_none.mp absent row stored (beq_iff_eq.mpr same)
    · have short := of_decide_eq_true (require_eq_ok.mp bounded)
      rwa [itemsFor_length] at short

theorem isKeyed_of_ok (success : call.result tables = .ok (after, id)) : call.isKeyed = true := by
  obtain ⟨_, checked, _⟩ := bind_eq_ok.mp success
  exact (Bool.and_eq_true_iff.mp (require_eq_ok.mp checked)).1

theorem result_of_isFormed {version : PublishedVersion} {existing : RunRow}
    (keyed : call.isKeyed = true) (formed : call.isFormed = true)
    (named : call.version tables = some version)
    (found : tables.runs.find? (fun run => run.idempotencyKey == call.key) = some existing)
    (other : existing.detectionRuleVersionId ≠ version.id) :
    call.result tables = .error .conflict := by
  obtain ⟨actor, bounded⟩ := Bool.and_eq_true_iff.mp formed
  have checked : (call.isKeyed && !(trim call.actorSubject).isEmpty) = true :=
    Bool.and_eq_true_iff.mpr ⟨keyed, actor⟩
  have refused : require (existing.detectionRuleVersionId == version.id)
      AdminOperationError.conflict = .error .conflict := by
    rw [beq_eq_false_iff_ne.mpr other]
    rfl
  refine bind_eq_error.mpr (.inr ⟨(), require_eq_ok.mpr checked, ?_⟩)
  refine bind_eq_error.mpr (.inr ⟨(), require_eq_ok.mpr bounded, ?_⟩)
  refine bind_eq_error.mpr (.inr ⟨version, orError_eq_ok.mpr named, ?_⟩)
  split
  next row own =>
    have same : some row = some existing := own.symm.trans found
    cases same
    exact bind_eq_error.mpr (.inl refused)
  next absent => exact absurd (absent.symm.trans found) (Option.some_ne_none existing).symm

theorem step_start_of_ok (success : call.result tables = .ok (after, id)) :
    tables.step (.start call) = after := by
  change (match call.result tables with
    | .ok (after, _) => after
    | .error _ => tables) = after
  rw [success]

theorem step_start_of_error {reason : AdminOperationError}
    (failure : call.result tables = .error reason) : tables.step (.start call) = tables := by
  change (match call.result tables with
    | .ok (after, _) => after
    | .error _ => tables) = tables
  rw [failure]

/-- What a step commits: a version, a snapshot, a run with its items, or nothing
that the invariant speaks of. -/
theorem step_cases (tables : Tables) (step : Step) :
    (∃ technologyId rule, tables.step step = tables.publish technologyId rule) ∨
      (∃ snapshot artifact, tables.step step = tables.capture snapshot artifact) ∨
      (∃ call versionId, step = .start call ∧
        (∀ run ∈ tables.runIdentities, run.2.1 ≠ call.key) ∧
        call.result tables = .ok (call.created tables versionId, tables.nextId) ∧
        tables.step step = call.created tables versionId) ∨
      Untouched tables (tables.step step) := by
  cases step with
  | publish technologyId rule => exact .inl ⟨technologyId, rule, rfl⟩
  | capture snapshot artifact => exact .inr (.inl ⟨snapshot, artifact, rfl⟩)
  | start call =>
      cases result : call.result tables with
      | error reason =>
          rw [step_start_of_error result]
          exact .inr (.inr (.inr (.refl tables)))
      | ok answer =>
          rw [step_start_of_ok result]
          obtain ⟨version, _, ⟨same, _⟩ | ⟨unused, drawn, same, _⟩⟩ := result_cases result
          · rw [same]
            exact .inr (.inr (.inr (.refl tables)))
          · refine .inr (.inr (.inl ⟨call, version.id, rfl, unused, ?_, same⟩))
            rw [result, ← same, ← drawn]
  | claim now =>
      dsimp only [Tables.step]
      split
      next after item success => exact .inr (.inr (.inr (claim_untouched success)))
      next => exact .inr (.inr (.inr (.refl tables)))
  | succeed item evaluation completedAt =>
      dsimp only [Tables.step]
      cases success : recordReprocessingSuccess tables item evaluation completedAt with
      | none => exact .inr (.inr (.inr (.refl tables)))
      | some after => exact .inr (.inr (.inr (success_untouched success)))
  | fail itemId summary retryAt terminal completedAt =>
      dsimp only [Tables.step]
      cases success : recordReprocessingFailure tables itemId summary retryAt terminal
        completedAt with
      | none => exact .inr (.inr (.inr (.refl tables)))
      | some after => exact .inr (.inr (.inr (failure_untouched success)))

/-- Every step keeps the invariant and takes nothing back. -/
theorem step_kept (formed : tables.WellFormed) (step : Step) :
    Grows tables (tables.step step) ∧ (tables.step step).WellFormed := by
  rcases step_cases tables step with ⟨technologyId, rule, same⟩ | ⟨snapshot, artifact, same⟩ |
    ⟨call, versionId, _, unused, _, same⟩ | untouched
  · rw [same]
    exact ⟨publish_grows technologyId rule, publish_wellFormed formed technologyId rule⟩
  · rw [same]
    exact ⟨capture_grows snapshot artifact, capture_wellFormed formed snapshot artifact⟩
  · rw [same]
    exact ⟨created_grows, created_wellFormed formed unused⟩
  · exact ⟨untouched.grows, untouched.wellFormed formed⟩

/-- Runs are only made by calls that create them. -/
theorem step_runs (tables : Tables) (step : Step) :
    (tables.step step).runIdentities = tables.runIdentities ∨
      ∃ call versionId, step = .start call ∧
        call.result tables = .ok (call.created tables versionId, tables.nextId) ∧
        tables.step step = call.created tables versionId := by
  rcases step_cases tables step with ⟨technologyId, rule, same⟩ | ⟨snapshot, artifact, same⟩ |
    ⟨call, versionId, start, _, success, same⟩ | untouched
  · rw [same]
    exact .inl rfl
  · rw [same, Tables.capture]
    split
    · exact .inl rfl
    · exact .inl rfl
  · exact .inr ⟨call, versionId, start, success, same⟩
  · exact .inl untouched.runs

theorem empty_wellFormed (kinds : List String) : (Tables.empty kinds).WellFormed := by
  constructor <;> simp [Tables.empty, Tables.runIdentities, Tables.fanOut]

theorem after_wellFormed (kinds : List String) (steps : List Step) : (Tables.after kinds steps).WellFormed :=
  run_invariant (P := Tables.WellFormed) (fun _ step formed => (step_kept formed step).2)
    (Tables.empty kinds) steps (empty_wellFormed kinds)

theorem after_append (kinds : List String) (before later : List Step) :
    Tables.after kinds (before ++ later) = run Tables.step (Tables.after kinds before) later :=
  run_append _ _ _ _

theorem after_concat (kinds : List String) (before : List Step) (step : Step) :
    Tables.after kinds (before ++ [step]) = (Tables.after kinds before).step step :=
  after_append kinds before [step]

theorem run_grows (formed : tables.WellFormed) (later : List Step) :
    Grows tables (run Tables.step tables later) := by
  induction later generalizing tables with
  | nil => exact .refl tables
  | cons step rest ih =>
      have kept := step_kept formed step
      exact kept.1.trans (ih kept.2)

end Starts

section Histories

/-- Somewhere in the history the call was made and answered with the run. -/
def Answered (kinds : List String) (steps : List Step) (call : StartCall) (id : Uuid) : Prop :=
  ∃ before later after, steps = before ++ .start call :: later ∧
    call.result (Tables.after kinds before) = .ok (after, id)

/-- The step of the history that created the run, and what there was before it. -/
structure CreatedBy (kinds : List String) (steps : List Step) (run : Uuid × Text × Uuid)
    (before : List Step) (call : StartCall) (later : List Step) : Prop where
  split : steps = before ++ .start call :: later
  answered : ∃ after, call.result (Tables.after kinds before) = .ok (after, run.1)
  fresh : ∀ earlier ∈ (Tables.after kinds before).runIdentities, earlier.1 ≠ run.1
  key : run.2.1 = call.key
  items : (Tables.after kinds steps).snapshotsOf run.1 =
    (Tables.after kinds before).snapshots.map SnapshotRow.id
  distinct : ((Tables.after kinds before).snapshots.map SnapshotRow.id).Nodup
  audited : (Tables.after kinds steps).auditsOf run.1 = 1

/-- What a call was answered is still there at the end of the history. -/
theorem Answered.kept {kinds : List String} {steps : List Step} {call : StartCall} {id : Uuid}
    (answered : Answered kinds steps call id) : ∃ version ∈ (Tables.after kinds steps).versions,
      (version.rule.ruleSlug = call.ruleSlug ∧ version.rule.version = call.ruleVersion) ∧
        (id, call.key, version.id) ∈ (Tables.after kinds steps).runIdentities := by
  obtain ⟨before, later, after, rfl, success⟩ := answered
  have formed := after_wellFormed kinds before
  obtain ⟨version, named, made⟩ := result_cases success
  have grows : Grows after (Tables.after kinds (before ++ .start call :: later)) := by
    have next := (step_kept formed (.start call)).2
    rw [step_start_of_ok success] at next
    have split := after_append kinds before (.start call :: later)
    rw [run_cons, step_start_of_ok success] at split
    rw [split]
    exact run_grows next later
  have stored : (id, call.key, version.id) ∈ after.runIdentities ∧
      version ∈ after.versions := by
    obtain ⟨listed, _⟩ := find?_eq_some_mem named
    rcases made with ⟨rfl, found⟩ | ⟨_, rfl, rfl, _⟩
    · exact ⟨found, listed⟩
    · rw [created_runIdentities]
      exact ⟨List.mem_append_right _ (List.mem_singleton_self _), listed⟩
  have named := (find?_eq_some_mem named).2
  rw [Bool.and_eq_true, beq_iff_eq, beq_iff_eq] at named
  exact ⟨version, grows.versions.subset stored.2, named, grows.runs.subset stored.1⟩

theorem exists_createdBy (kinds : List String) (steps : List Step) : ∀ run ∈ (Tables.after kinds steps).runIdentities,
    ∃ before call later, CreatedBy kinds steps run before call later := by
  induction steps using List.reverseRecOn with
  | nil =>
      intro run member
      simp [Tables.after, Tables.empty, Tables.runIdentities] at member
  | append_singleton steps step ih =>
      intro run member
      have formed := after_wellFormed kinds steps
      have old : run ∈ (Tables.after kinds steps).runIdentities →
          ∃ before call later, CreatedBy kinds (steps ++ [step]) run before call later := by
        intro earlier
        obtain ⟨before, call, later, created⟩ := ih run earlier
        have grows := (step_kept formed step).1
        have drawn := formed.runsDrawn run earlier
        refine ⟨before, call, later ++ [step], ?_, created.answered, created.fresh, created.key,
          ?_, created.distinct, ?_⟩
        · rw [created.split, List.append_assoc, List.cons_append]
        · rw [after_concat, grows.items run.1 drawn, created.items]
        · rw [after_concat, grows.audits run.1 drawn, created.audited]
      rw [after_concat] at member
      rcases step_runs (Tables.after kinds steps) step with same | ⟨call, versionId, rfl, success, same⟩
      · rw [same] at member
        exact old member
      · rw [same, created_runIdentities] at member
        rcases List.mem_append.mp member with earlier | new
        · exact old earlier
        · rw [List.mem_singleton.mp new]
          refine ⟨steps, call, [], rfl, ⟨_, success⟩, ?_, rfl, ?_, formed.snapshots, ?_⟩
          · exact fun earlier stored => (formed.runsDrawn earlier stored).ne
          · rw [after_concat, same, created_snapshotsOf formed]
          · rw [after_concat, same, created_audited formed]

/-- A key that stands for a run of another version is refused. -/
theorem result_refused {tables : Tables} {call : StartCall} {run : Uuid × Text × Uuid}
    (formed : tables.WellFormed) (member : run ∈ tables.runIdentities)
    (key : run.2.1 = call.key)
    (other : ∀ version, call.version tables = some version → version.id ≠ run.2.2) :
    tables.step (.start call) = tables ∧ ∃ reason, call.result tables = .error reason := by
  cases result : call.result tables with
  | error reason => exact ⟨step_start_of_error result, reason, rfl⟩
  | ok answer =>
      obtain ⟨version, named, ⟨_, stored⟩ | ⟨unused, _, _⟩⟩ := result_cases result
      · have same : (answer.2, call.key, version.id) = run :=
          eq_of_key_eq formed.keys stored member key.symm
        exact absurd (congrArg (fun run => run.2.2) same) (other version named)
      · exact absurd key (unused run member)

theorem result_conflict {kinds : List String} {steps : List Step} {call : StartCall} {run : Uuid × Text × Uuid}
    {version : PublishedVersion} (member : run ∈ (Tables.after kinds steps).runIdentities)
    (key : run.2.1 = call.key) (formed : call.isFormed = true)
    (named : call.version (Tables.after kinds steps) = some version) (other : version.id ≠ run.2.2) :
    call.result (Tables.after kinds steps) = .error .conflict := by
  obtain ⟨_, creation, _, created⟩ := exists_createdBy kinds steps run member
  obtain ⟨_, success⟩ := created.answered
  have keyed : call.isKeyed = true := by
    have same : creation.isKeyed = call.isKeyed := by
      rw [StartCall.isKeyed, StartCall.isKeyed, ← created.key, key]
    rw [← same]
    exact isKeyed_of_ok success
  cases found : (Tables.after kinds steps).runs.find? fun run => run.idempotencyKey == call.key with
  | none =>
      obtain ⟨row, stored, rfl⟩ := List.mem_map.mp member
      exact absurd (beq_iff_eq.mpr key) (List.find?_eq_none.mp found row stored)
  | some existing =>
      obtain ⟨stored, named'⟩ := find?_eq_some_mem found
      have same : existing.identity = run :=
        eq_of_key_eq (after_wellFormed kinds steps).keys (List.mem_map_of_mem stored) member
          ((beq_iff_eq.mp named').trans key.symm)
      refine result_of_isFormed keyed formed named found ?_
      intro equal
      exact other (equal.symm.trans (congrArg (fun run => run.2.2) same))

theorem startReprocessing_idempotent (kinds : List String) (steps : List Step) :
    (∀ first second firstId secondId, Answered kinds steps first firstId →
      Answered kinds steps second secondId → first.key = second.key →
        firstId = secondId ∧ first.ruleSlug = second.ruleSlug ∧
          first.ruleVersion = second.ruleVersion) ∧
      (∀ run ∈ (Tables.after kinds steps).runIdentities, ∃ before call later,
        CreatedBy kinds steps run before call later) ∧
      ∀ call, ∀ run ∈ (Tables.after kinds steps).runIdentities, run.2.1 = call.key →
        (∀ version, call.version (Tables.after kinds steps) = some version → version.id ≠ run.2.2) →
          (Tables.after kinds steps).step (.start call) = Tables.after kinds steps ∧
            ∃ reason, call.result (Tables.after kinds steps) = .error reason ∧
              (call.isFormed = true → (call.version (Tables.after kinds steps)).isSome →
                reason = .conflict) := by
  have formed := after_wellFormed kinds steps
  refine ⟨?_, exists_createdBy kinds steps, ?_⟩
  · intro first second firstId secondId early late key
    obtain ⟨version, listed, named, stored⟩ := early.kept
    obtain ⟨other, otherListed, otherNamed, otherStored⟩ := late.kept
    have same : (firstId, first.key, version.id) = (secondId, second.key, other.id) :=
      eq_of_key_eq formed.keys stored otherStored key
    have sameVersion : version = other :=
      eq_of_key_eq formed.versions listed otherListed (congrArg (fun run => run.2.2) same)
    subst sameVersion
    exact ⟨congrArg Prod.fst same, named.1.symm.trans otherNamed.1,
      named.2.symm.trans otherNamed.2⟩
  · intro call run member key other
    obtain ⟨kept, reason, failure⟩ := result_refused formed member key other
    refine ⟨kept, reason, failure, ?_⟩
    intro valid exists_version
    obtain ⟨version, named⟩ := Option.isSome_iff_exists.mp exists_version
    have conflict := result_conflict member key valid named (other version named)
    rw [failure] at conflict
    exact Except.error.inj conflict

end Histories

end TechAtlas.Reprocessing
