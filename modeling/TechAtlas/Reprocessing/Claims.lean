import TechAtlas.Reprocessing.Starts

set_option autoImplicit false

/- Workers that claim items of a replay, are lost or record what became of them:
when an item can still be claimed. -/
namespace TechAtlas.Reprocessing

open Library TechAtlas.Detector TechAtlas.Store TechAtlas.Storage

section Workers

/-- The store, and the claimed items that live workers have not recorded yet. -/
structure World where
  tables : Tables
  live : List WorkItem

def World.empty (kinds : List String) : World where
  tables := Tables.empty kinds
  live := []

/-- What happens to the replays. A worker is lost by `crash`, and a record call that
does not commit comes back to its worker as an error. -/
inductive Event
  | publish (technologyId : Uuid) (rule : ActiveDetectionRule)
  | capture (snapshot : SnapshotRow) (artifact : Option RawArtifactMetadata)
  | start (call : StartCall)
  | claim (now : Time)
  | crash (itemId : Uuid)
  | succeed (itemId : Uuid) (evaluation : ReprocessingEvaluation) (completedAt : Time)
      (committed : Bool)
  | fail (itemId : Uuid) (summary : Text) (retryAt completedAt : Time) (committed : Bool)

/-- The worker of an item makes its record call and is done with the item. -/
def World.record (world : World) (itemId : Uuid) (call : WorkItem → Option Tables) : World :=
  match world.live.find? fun work => work.id == itemId with
  | none => world
  | some work =>
      { tables := (call work).getD world.tables
        live := world.live.filter fun other => other.id != itemId }

/-- `process_next` from claim to record; `max_attempts` decides which failures are terminal. -/
def World.step (maxAttempts : Nat) (world : World) : Event → World
  | .publish technologyId rule => { world with tables := world.tables.publish technologyId rule }
  | .capture snapshot artifact => { world with tables := world.tables.capture snapshot artifact }
  | .start call => { world with tables := world.tables.step (.start call) }
  | .claim now =>
      match claimNextReprocessingItem world.tables now with
      | .ok (after, some work) => { tables := after, live := world.live ++ [work] }
      | _ => world
  | .crash itemId => { world with live := world.live.filter fun other => other.id != itemId }
  | .succeed itemId evaluation completedAt committed =>
      world.record itemId fun work =>
        if committed then recordReprocessingSuccess world.tables work evaluation completedAt
        else none
  | .fail itemId summary retryAt completedAt committed =>
      world.record itemId fun work =>
        if committed then
          recordReprocessingFailure world.tables work.id summary retryAt
            (decide (maxAttempts ≤ work.attemptCount)) completedAt
        else none

def World.after (kinds : List String) (maxAttempts : Nat) (events : List Event) : World :=
  run (World.step maxAttempts) (World.empty kinds) events

def World.isLive (world : World) (itemId : Uuid) : Prop := ∃ work ∈ world.live, work.id = itemId

/-- What the columns of a detection and of its evidence can hold. -/
def Recordable (evaluation : ReprocessingEvaluation) : Prop :=
  ∀ detection, evaluation.detection = some detection →
    (∀ version, evaluation.technologyVersion = some version →
      1 ≤ version.length ∧ version.length ≤ 128) ∧
    detection.evidence.Nodup ∧ ∀ item ∈ detection.evidence,
      (1 ≤ (btrim item.key).length ∧ (btrim item.key).length ≤ 128) ∧
        1 ≤ (btrim item.value).length ∧ (btrim item.value).length ≤ 2048

/-- No worker is lost with its item, what it records is committed, and an item that
goes back to the queue can count one more attempt. -/
def Attends (maxAttempts : Nat) (world : World) : Event → Prop
  | .crash itemId => ¬world.isLive itemId
  | .succeed itemId evaluation _ committed =>
      world.isLive itemId → committed = true ∧ Recordable evaluation
  | .fail itemId _ _ _ committed => ∀ work ∈ world.live, work.id = itemId →
      committed = true ∧ (maxAttempts ≤ work.attemptCount ∨ work.attemptCount + 1 < 2 ^ 15)
  | _ => True

/-- Every item that is neither done nor with a worker can still be claimed, and every run
can still be finished. -/
structure NeverStranded (maxAttempts : Nat) (world : World) : Prop where
  claimable : ∀ row ∈ world.tables.items, row.status.isPending = true → ¬world.isLive row.id →
    ∃ later now after work,
      claimNextReprocessingItem (run (World.step maxAttempts) world later).tables now =
        .ok (after, some work) ∧ work.id = row.id
  finishes : ∀ own ∈ world.tables.runs, ∃ later,
    ∃ ended ∈ (run (World.step maxAttempts) world later).tables.runs,
      ended.id = own.id ∧ ended.status.isFinished = true

end Workers

section Calls

variable {tables after : Tables}

/-- What a claim changes. -/
structure Claimed (tables after : Tables) (now : Time) (row : WorkItemRow) (work : WorkItem) :
    Prop where
  member : row ∈ tables.items
  queued : row.status = .queued
  attempts : row.attemptCount + 1 < 2 ^ 15
  id : work.id = row.id
  runId : work.runId = row.runId
  snapshotId : work.snapshotId = row.crawlSnapshotId
  attemptCount : work.attemptCount = row.attemptCount + 1
  same : after = { tables with
    items := updateWhere (fun other => other.id == row.id) (WorkItemRow.claimedAtTime now)
      tables.items
    runs := updateWhere (fun run => run.id == row.runId && run.status == .queued)
      (RunRow.startedAtTime now) tables.runs }

theorem nextDue_eq_some {now : Time} {row : WorkItemRow} (found : tables.nextDue now = some row) :
    row ∈ tables.items ∧ row.isDue now = true ∧ (tables.sourceOf row).isSome = true := by
  have member := List.mem_of_mem_head? (Option.mem_def.mpr found)
  rw [List.mem_insertionSort, List.mem_filter, Bool.and_eq_true] at member
  exact member

theorem claim_claimed {now : Time} {work : WorkItem}
    (success : claimNextReprocessingItem tables now = .ok (after, some work)) :
    ∃ row, Claimed tables after now row work := by
  unfold claimNextReprocessingItem at success
  split at success
  next => cases success
  next row found =>
    obtain ⟨member, due, _⟩ := nextDue_eq_some found
    obtain ⟨_, bounded, success⟩ := bind_eq_ok.mp success
    obtain ⟨_, _, success⟩ := bind_eq_ok.mp success
    obtain ⟨_, _, success⟩ := bind_eq_ok.mp success
    cases success
    have queued : row.status = .queued := by
      rw [WorkItemRow.isDue, Bool.and_eq_true, beq_iff_eq] at due
      exact due.1
    exact ⟨row, member, queued, of_decide_eq_true (require_eq_ok.mp bounded), rfl, rfl, rfl, rfl,
      rfl⟩

/-- What a record call changes: the item, the run, and the rows about the snapshot of the
item, which it adds only for an item that is done. -/
structure Recorded (tables after : Tables) (itemId runId snapshotId : Uuid)
    (change : WorkItemRow → WorkItemRow) (now : Time) : Prop where
  untouched : Untouched tables after
  items : after.items =
    updateWhere (fun row => row.id == itemId && row.status == .running) change tables.items
  runs : after.runs = updateWhere (fun run => run.id == runId)
    (RunRow.refreshed (after.countItems runId) now) tables.runs
  artifacts : after.artifacts = tables.artifacts
  observations : ∀ row ∈ after.observations, row ∈ tables.observations ∨
    (row.runId = runId ∧ row.crawlSnapshotId = snapshotId) ∧
      ∀ item, (change item).status.isPending = false
  detections : ∀ row ∈ after.detections, row ∈ tables.detections ∨
    (row.runId = runId ∧ row.crawlSnapshotId = snapshotId) ∧
      ∀ item, (change item).status.isPending = false
  evidence : (∀ row ∈ tables.evidence, row.reprocessedDetectionId < tables.nextId) →
    ∀ row ∈ after.evidence, row.reprocessedDetectionId < after.nextId

/-- What `refresh_run` changes. -/
structure Refreshed (tables after : Tables) (runId : Uuid) (now : Time) : Prop where
  untouched : Untouched tables after
  items : after.items = tables.items
  runs : after.runs = updateWhere (fun run => run.id == runId)
    (RunRow.refreshed (tables.countItems runId) now) tables.runs
  artifacts : after.artifacts = tables.artifacts
  observations : after.observations = tables.observations
  detections : after.detections = tables.detections
  evidence : after.evidence = tables.evidence

theorem refreshRun_refreshed {runId : Uuid} {now : Time}
    (success : refreshRun tables runId now = some after) : Refreshed tables after runId now := by
  have untouched := refreshRun_untouched success
  obtain ⟨updated, update, same⟩ := Option.bind_eq_some_iff.mp success
  unfold Tables.updateRun at update
  split at update
  · cases update
    split at same
    · cases same
      exact ⟨untouched, rfl, rfl, rfl, rfl, rfl, rfl⟩
    · cases same
      exact ⟨untouched, rfl, rfl, rfl, rfl, rfl, rfl⟩
  · cases update

theorem Refreshed.countItems {runId : Uuid} {now : Time}
    (refreshed : Refreshed tables after runId now) (id : Uuid) :
    after.countItems id = tables.countItems id := by
  unfold Tables.countItems
  rw [refreshed.items]

theorem failure_recorded {row : WorkItemRow} {summary : Text} {retryAt : Time} {terminal : Bool}
    {completedAt : Time} (unique : (tables.items.map WorkItemRow.id).Nodup)
    (member : row ∈ tables.items)
    (success : recordReprocessingFailure tables row.id summary retryAt terminal completedAt =
      some after) :
    Recorded tables after row.id row.runId row.crawlSnapshotId
      (if terminal then WorkItemRow.deadLetteredAt (boundedSummary summary) completedAt
        else WorkItemRow.requeuedAt (boundedSummary summary) retryAt completedAt) completedAt := by
  have untouched := failure_untouched success
  obtain ⟨item, found, success⟩ := Option.bind_eq_some_iff.mp success
  obtain ⟨inTable, own⟩ := (find?_key_eq_some unique).mp found
  have same : item = row := eq_of_key_eq unique inTable member own
  subst same
  have refreshed := refreshRun_refreshed success
  refine ⟨untouched, refreshed.items, ?_, refreshed.artifacts, ?_, ?_, ?_⟩
  · rw [refreshed.countItems]
    exact refreshed.runs
  · intro row stored
    rw [refreshed.observations] at stored
    exact .inl stored
  · intro row stored
    rw [refreshed.detections] at stored
    exact .inl stored
  · intro drawn row stored
    rw [refreshed.evidence] at stored
    exact lt_of_lt_of_le (drawn row stored) untouched.nextId

theorem insertEvidence_rows {detectionId : Uuid} {evidence : List DetectionEvidence}
    {rows result : List ReprocessedEvidenceRow}
    (success : evidence.foldlM (insertEvidence detectionId) rows = some result) :
    ∀ row ∈ result, row ∈ rows ∨ row.reprocessedDetectionId = detectionId := by
  induction evidence generalizing rows with
  | nil =>
      cases success
      exact fun row member => .inl member
  | cons item rest ih =>
      rw [List.foldlM_cons] at success
      obtain ⟨between, inserted, success⟩ := Option.bind_eq_some_iff.mp success
      obtain ⟨_, rfl⟩ := insertChecked_eq_some.mp inserted
      intro row member
      rcases ih success row member with earlier | own
      · rcases List.mem_append.mp earlier with old | new
        · exact .inl old
        · rw [List.mem_singleton.mp new]
          exact .inr rfl
      · exact .inr own

/-- What the insertions of a success change besides the item and the run. -/
structure Inserted (tables after : Tables) (runId snapshotId : Uuid) : Prop where
  items : after.items = tables.items
  runs : after.runs = tables.runs
  artifacts : after.artifacts = tables.artifacts
  observations : ∀ row ∈ after.observations, row ∈ tables.observations ∨
    row.runId = runId ∧ row.crawlSnapshotId = snapshotId
  detections : ∀ row ∈ after.detections, row ∈ tables.detections ∨
    row.runId = runId ∧ row.crawlSnapshotId = snapshotId
  evidence : (∀ row ∈ tables.evidence, row.reprocessedDetectionId < tables.nextId) →
    ∀ row ∈ after.evidence, row.reprocessedDetectionId < after.nextId

theorem insertObservation_inserted {work : WorkItem} {status : RuleObservationStatus}
    (success : tables.insertObservation work status = some after) :
    Inserted tables after work.runId work.snapshotId := by
  obtain ⟨rows, inserted, rfl⟩ := Option.map_eq_some_iff.mp success
  obtain ⟨_, rfl⟩ := insertChecked_eq_some.mp inserted
  refine ⟨rfl, rfl, rfl, ?_, fun row member => .inl member, fun drawn => drawn⟩
  intro row member
  rcases List.mem_append.mp member with old | new
  · exact .inl old
  · rw [List.mem_singleton.mp new]
    exact .inr ⟨rfl, rfl⟩

theorem insertDetection_inserted {work : WorkItem} {version : Option Text}
    {detection : Option Detection}
    (success : tables.insertDetection work version detection = some after) :
    Inserted tables after work.runId work.snapshotId := by
  cases detection with
  | none =>
      cases success
      exact ⟨rfl, rfl, rfl, fun row member => .inl member, fun row member => .inl member,
        fun drawn => drawn⟩
  | some detection =>
      obtain ⟨detections, inserted, success⟩ := Option.bind_eq_some_iff.mp success
      obtain ⟨evidence, folded, success⟩ := Option.bind_eq_some_iff.mp success
      obtain ⟨_, rfl⟩ := insertChecked_eq_some.mp inserted
      cases success
      refine ⟨rfl, rfl, rfl, fun row member => .inl member, ?_, ?_⟩
      · intro row member
        rcases List.mem_append.mp member with old | new
        · exact .inl old
        · rw [List.mem_singleton.mp new]
          exact .inr ⟨rfl, rfl⟩
      · intro drawn row member
        rcases insertEvidence_rows folded row member with old | own
        · exact lt_trans (drawn row old) (Nat.lt_succ_self _)
        · rw [own]
          exact Nat.lt_succ_self _

theorem success_recorded {work : WorkItem} {evaluation : ReprocessingEvaluation}
    {completedAt : Time}
    (success : recordReprocessingSuccess tables work evaluation completedAt = some after) :
    Recorded tables after work.id work.runId work.snapshotId
      (WorkItemRow.succeededAtTime completedAt) completedAt := by
  have untouched := success_untouched success
  obtain ⟨observed, observation, success⟩ := Option.bind_eq_some_iff.mp success
  obtain ⟨detected, detection, success⟩ := Option.bind_eq_some_iff.mp success
  have first := insertObservation_inserted observation
  have second := insertDetection_inserted detection
  have refreshed := refreshRun_refreshed success
  refine ⟨untouched, ?_, ?_, ?_, ?_, ?_, ?_⟩
  · rw [refreshed.items, Tables.updateItem, second.items, first.items]
  · rw [refreshed.countItems, refreshed.runs, Tables.updateItem, second.runs, first.runs]
  · rw [refreshed.artifacts, Tables.updateItem, second.artifacts, first.artifacts]
  · intro row member
    rw [refreshed.observations] at member
    rcases second.observations row member with earlier | own
    · exact (first.observations row earlier).imp_right fun own => ⟨own, fun _ => rfl⟩
    · exact .inr ⟨own, fun _ => rfl⟩
  · intro row member
    rw [refreshed.detections] at member
    rcases second.detections row member with earlier | own
    · exact (first.detections row earlier).imp_right fun own => ⟨own, fun _ => rfl⟩
    · exact .inr ⟨own, fun _ => rfl⟩
  · intro drawn row member
    rw [refreshed.evidence] at member
    have later := second.evidence (first.evidence drawn) row member
    exact lt_of_lt_of_le later refreshed.untouched.nextId

end Calls

section Invariant

/-- Every item belongs to a run and a snapshot, which have one item in common at most,
and every run to a version. -/
structure Tables.Placed (tables : Tables) : Prop where
  formed : tables.WellFormed
  ids : (tables.items.map WorkItemRow.id).Nodup
  idsDrawn : ∀ id ∈ tables.items.map WorkItemRow.id, id < tables.nextId
  pairs : tables.fanOut.Nodup
  runOf : ∀ pair ∈ tables.fanOut, ∃ own ∈ tables.runIdentities, own.1 = pair.1
  versionOf : ∀ own ∈ tables.runIdentities, ∃ version ∈ tables.versions, version.id = own.2.2
  snapshotOf : ∀ pair ∈ tables.fanOut, ∃ snapshot ∈ tables.snapshots, snapshot.id = pair.2
  artifacts : ∀ row ∈ tables.artifacts, ∃ artifact, responseBody row.storageLocation
    row.checksumSha256 row.compression row.uncompressedSizeBytes row.compressedSizeBytes
    row.retentionExpiresAt = .ok artifact
  counts : ∀ runId, (tables.fanOut.countP fun pair => pair.1 == runId) < 2 ^ 31

/-- What holds of the tables whatever became of the workers. -/
structure Tables.Consistent (tables : Tables) : Prop where
  placed : tables.Placed
  settled : ∀ own ∈ tables.runs, (∀ row ∈ tables.items, row.runId = own.id →
    row.status.isPending = false) → own.status.isFinished = true
  observed : ∀ row ∈ tables.items, row.status.isPending = true →
    ∀ old ∈ tables.observations, ¬(old.runId = row.runId ∧ old.crawlSnapshotId = row.crawlSnapshotId)
  detected : ∀ row ∈ tables.items, row.status.isPending = true →
    ∀ old ∈ tables.detections, ¬(old.runId = row.runId ∧ old.crawlSnapshotId = row.crawlSnapshotId)
  observedDrawn : ∀ old ∈ tables.observations, old.runId < tables.nextId
  detectedDrawn : ∀ old ∈ tables.detections, old.runId < tables.nextId
  evidence : ∀ row ∈ tables.evidence, row.reprocessedDetectionId < tables.nextId

variable {tables after : Tables}

theorem Tables.countItems_total (tables : Tables) (runId : Uuid) :
    (tables.countItems runId).total = tables.fanOut.countP fun pair => pair.1 == runId := by
  rw [Tables.fanOut, List.countP_map]
  exact List.countP_eq_length_filter.symm

theorem countItems_finished {runId : Uuid} (none : ∀ row ∈ tables.items, row.runId = runId →
    row.status.isPending = false) : (tables.countItems runId).status.isFinished = true := by
  have zero : (tables.countItems runId).pending = 0 := by
    apply List.countP_eq_zero.mpr
    intro row member
    obtain ⟨inTable, own⟩ := List.mem_filter.mp member
    rw [none row inTable (beq_iff_eq.mp own)]
    exact Bool.false_ne_true
  rw [RunCounts.status, if_pos zero]
  split <;> rfl

theorem eq_of_fanOut_eq (pairs : tables.fanOut.Nodup) {first second : WorkItemRow}
    (left : first ∈ tables.items) (right : second ∈ tables.items) (run : first.runId = second.runId)
    (snapshot : first.crawlSnapshotId = second.crawlSnapshotId) : first = second :=
  eq_of_key_eq pairs left right (Prod.ext run snapshot)

/-- A step that only updates rows keeps them where they belong. -/
theorem Tables.Placed.moved (placed : tables.Placed) (untouched : Untouched tables after)
    (ids : after.items.map WorkItemRow.id = tables.items.map WorkItemRow.id)
    (artifacts : after.artifacts = tables.artifacts) : after.Placed := by
  constructor
  · exact untouched.wellFormed placed.formed
  · rw [ids]
    exact placed.ids
  · rw [ids]
    exact fun id member => lt_of_lt_of_le (placed.idsDrawn id member) untouched.nextId
  · rw [untouched.items]
    exact placed.pairs
  · rw [untouched.items, untouched.runs]
    exact placed.runOf
  · rw [untouched.runs, untouched.versions]
    exact placed.versionOf
  · rw [untouched.items, untouched.snapshots]
    exact placed.snapshotOf
  · rw [artifacts]
    exact placed.artifacts
  · rw [untouched.items]
    exact placed.counts

theorem Tables.Placed.publish (placed : tables.Placed) (technologyId : Uuid)
    (rule : ActiveDetectionRule) : (tables.publish technologyId rule).Placed where
  formed := publish_wellFormed placed.formed technologyId rule
  ids := placed.ids
  idsDrawn id member := Nat.lt_succ_of_lt (placed.idsDrawn id member)
  pairs := placed.pairs
  runOf := placed.runOf
  versionOf own member := by
    obtain ⟨version, listed, same⟩ := placed.versionOf own member
    exact ⟨version, List.mem_append_left _ listed, same⟩
  snapshotOf := placed.snapshotOf
  artifacts := placed.artifacts
  counts := placed.counts

theorem Tables.Placed.capture (placed : tables.Placed) (snapshot : SnapshotRow)
    (artifact : Option RawArtifactMetadata) : (tables.capture snapshot artifact).Placed := by
  have formed := capture_wellFormed placed.formed snapshot artifact
  unfold Tables.capture at formed ⊢
  split at formed
  next valid =>
    rw [if_pos valid]
    refine ⟨formed, placed.ids, fun id member => Nat.lt_succ_of_lt (placed.idsDrawn id member),
      placed.pairs, placed.runOf, placed.versionOf, ?_, ?_, placed.counts⟩
    · intro pair member
      obtain ⟨own, stored, same⟩ := placed.snapshotOf pair member
      exact ⟨own, List.mem_append_left _ stored, same⟩
    · intro row member
      rcases List.mem_append.mp member with old | new
      · exact placed.artifacts row old
      · cases artifact with
        | none => cases new
        | some own =>
            rw [List.mem_singleton.mp new]
            change isValidMetadata own = true at valid
            unfold isValidMetadata at valid
            dsimp only [artifactRow]
            cases built : responseBody own.storageLocation own.checksumSha256 own.compression
              own.uncompressedSizeBytes own.compressedSizeBytes own.retentionExpiresAt with
            | ok artifact => exact ⟨artifact, rfl⟩
            | error reason =>
                rw [built] at valid
                cases valid
  next refused =>
    rw [if_neg refused]
    exact placed

/-- The items of a new run have the identifiers after it. -/
theorem mem_itemsFor {runId : Uuid} {now : Time} {id : Nat} {snapshots : List SnapshotRow}
    {row : WorkItemRow} (member : row ∈ itemsFor runId now id snapshots) :
    ∃ own : Nat, id ≤ own ∧ own < id + snapshots.length ∧ ∃ snapshot ∈ snapshots,
      row = queuedItem runId now own snapshot := by
  induction snapshots generalizing id with
  | nil => cases member
  | cons snapshot rest ih =>
      rw [itemsFor] at member
      rw [List.length_cons]
      rcases List.mem_cons.mp member with rfl | later
      · exact ⟨id, le_refl id, by omega, snapshot, List.mem_cons_self, rfl⟩
      · obtain ⟨own, low, high, other, inRest, same⟩ := ih later
        exact ⟨own, by omega, by omega, other, List.mem_cons_of_mem snapshot inRest, same⟩

theorem itemsFor_ids (runId : Uuid) (now : Time) (id : Nat) (snapshots : List SnapshotRow) :
    ((itemsFor runId now id snapshots).map WorkItemRow.id).Nodup := by
  induction snapshots generalizing id with
  | nil => exact List.nodup_nil
  | cons snapshot rest ih =>
      rw [itemsFor, List.map_cons, List.nodup_cons]
      refine ⟨?_, ih (id + 1)⟩
      intro again
      obtain ⟨row, later, same⟩ := List.mem_map.mp again
      obtain ⟨own, low, _, _, _, rfl⟩ := mem_itemsFor later
      change (own : Nat) = id at same
      omega

theorem Tables.Placed.created {call : StartCall} {version : PublishedVersion}
    (placed : tables.Placed) (unused : ∀ run ∈ tables.runIdentities, run.2.1 ≠ call.key)
    (named : call.version tables = some version) (short : tables.snapshots.length < 2 ^ 31) :
    (call.created tables version.id).Placed := by
  have none : ∀ pair ∈ tables.fanOut, pair.1 ≠ tables.nextId := fun pair member =>
    (placed.formed.itemsDrawn pair member).ne
  constructor
  · exact created_wellFormed placed.formed unused
  · change ((tables.items ++ itemsFor tables.nextId call.now (tables.nextId + 1)
      tables.snapshots).map WorkItemRow.id).Nodup
    rw [List.map_append, List.nodup_append]
    refine ⟨placed.ids, itemsFor_ids _ _ _ _, ?_⟩
    intro left old right new same
    obtain ⟨row, later, rfl⟩ := List.mem_map.mp new
    obtain ⟨own, low, _, _, _, rfl⟩ := mem_itemsFor later
    have drawn : left < tables.nextId := placed.idsDrawn left old
    have own' : left = own := same
    exact absurd (own' ▸ drawn) (Nat.not_lt.mpr (Nat.le_of_succ_le low))
  · change ∀ id ∈ (tables.items ++ itemsFor tables.nextId call.now (tables.nextId + 1)
      tables.snapshots).map WorkItemRow.id, id < tables.nextId + 1 + _
    intro id member
    rw [List.map_append, List.mem_append] at member
    rcases member with old | new
    · exact lt_of_lt_of_le (placed.idsDrawn id old)
        (le_trans (Nat.le_succ _) (Nat.le_add_right _ _))
    · obtain ⟨row, later, rfl⟩ := List.mem_map.mp new
      obtain ⟨own, _, high, _, _, rfl⟩ := mem_itemsFor later
      rw [itemsFor_length]
      exact high
  · rw [created_fanOut, List.nodup_append]
    refine ⟨placed.pairs, ?_, ?_⟩
    · have distinct := placed.formed.snapshots.map
        (Prod.mk_right_injective tables.nextId : Function.Injective (Prod.mk tables.nextId))
      rw [List.map_map] at distinct
      exact distinct
    · intro left old right new same
      obtain ⟨snapshot, _, rfl⟩ := List.mem_map.mp new
      exact none left old (congrArg Prod.fst same)
  · intro pair member
    rw [created_fanOut] at member
    rw [created_runIdentities]
    rcases List.mem_append.mp member with old | new
    · obtain ⟨own, stored, same⟩ := placed.runOf pair old
      exact ⟨own, List.mem_append_left _ stored, same⟩
    · obtain ⟨snapshot, _, rfl⟩ := List.mem_map.mp new
      exact ⟨_, List.mem_append_right _ (List.mem_singleton_self _), rfl⟩
  · intro own member
    rw [created_runIdentities] at member
    rcases List.mem_append.mp member with old | new
    · exact placed.versionOf own old
    · rw [List.mem_singleton.mp new]
      exact ⟨version, (find?_eq_some_mem named).1, rfl⟩
  · intro pair member
    rw [created_fanOut] at member
    rcases List.mem_append.mp member with old | new
    · exact placed.snapshotOf pair old
    · obtain ⟨snapshot, stored, rfl⟩ := List.mem_map.mp new
      exact ⟨snapshot, stored, rfl⟩
  · exact placed.artifacts
  · intro runId
    rw [created_fanOut, List.countP_append, List.countP_map]
    by_cases own : tables.nextId = runId
    · subst own
      have zero : tables.fanOut.countP (fun pair => pair.1 == tables.nextId) = 0 := by
        rw [List.countP_eq_zero]
        intro pair member same
        exact none pair member (beq_iff_eq.mp same)
      rw [zero, Nat.zero_add]
      exact lt_of_le_of_lt List.countP_le_length short
    · have zero : tables.snapshots.countP
          ((fun pair : Uuid × Uuid => pair.1 == runId) ∘
            fun snapshot : SnapshotRow => (tables.nextId, snapshot.id)) = 0 := by
        rw [List.countP_eq_zero]
        intro snapshot _ same
        exact own (beq_iff_eq.mp same)
      rw [zero, Nat.add_zero]
      exact placed.counts runId

theorem Tables.Consistent.publish (consistent : tables.Consistent) (technologyId : Uuid)
    (rule : ActiveDetectionRule) : (tables.publish technologyId rule).Consistent where
  placed := consistent.placed.publish technologyId rule
  settled := consistent.settled
  observed := consistent.observed
  detected := consistent.detected
  observedDrawn old member := Nat.lt_succ_of_lt (consistent.observedDrawn old member)
  detectedDrawn old member := Nat.lt_succ_of_lt (consistent.detectedDrawn old member)
  evidence row member := Nat.lt_succ_of_lt (consistent.evidence row member)

theorem Tables.Consistent.capture (consistent : tables.Consistent) (snapshot : SnapshotRow)
    (artifact : Option RawArtifactMetadata) : (tables.capture snapshot artifact).Consistent := by
  have placed := consistent.placed.capture snapshot artifact
  unfold Tables.capture at placed ⊢
  split at placed
  next valid =>
    rw [if_pos valid]
    exact ⟨placed, consistent.settled, consistent.observed, consistent.detected,
      fun old member => Nat.lt_succ_of_lt (consistent.observedDrawn old member),
      fun old member => Nat.lt_succ_of_lt (consistent.detectedDrawn old member),
      fun row member => Nat.lt_succ_of_lt (consistent.evidence row member)⟩
  next refused =>
    rw [if_neg refused]
    exact consistent

theorem Tables.Consistent.created {call : StartCall} {version : PublishedVersion}
    (consistent : tables.Consistent)
    (unused : ∀ run ∈ tables.runIdentities, run.2.1 ≠ call.key)
    (named : call.version tables = some version) (short : tables.snapshots.length < 2 ^ 31) :
    (call.created tables version.id).Consistent where
  placed := consistent.placed.created unused named short
  settled own member done := by
    rcases List.mem_append.mp member with old | new
    · exact consistent.settled own old fun row inTable =>
        done row (List.mem_append_left _ inTable)
    · rw [List.mem_singleton.mp new] at done ⊢
      cases snapshots : tables.snapshots with
      | nil => rfl
      | cons snapshot rest =>
          have first : queuedItem tables.nextId call.now (tables.nextId + 1) snapshot ∈
              (call.created tables version.id).items := by
            change _ ∈ tables.items ++ itemsFor _ _ _ tables.snapshots
            rw [snapshots]
            exact List.mem_append_right _ List.mem_cons_self
          cases done _ first rfl
  observed row member pending old stored same := by
    rcases List.mem_append.mp member with earlier | new
    · exact consistent.observed row earlier pending old stored same
    · obtain ⟨own, _, _, snapshot, _, rfl⟩ := mem_itemsFor new
      exact (consistent.observedDrawn old stored).ne same.1
  detected row member pending old stored same := by
    rcases List.mem_append.mp member with earlier | new
    · exact consistent.detected row earlier pending old stored same
    · obtain ⟨own, _, _, snapshot, _, rfl⟩ := mem_itemsFor new
      exact (consistent.detectedDrawn old stored).ne same.1
  observedDrawn old member := lt_trans (consistent.observedDrawn old member) created_later
  detectedDrawn old member := lt_trans (consistent.detectedDrawn old member) created_later
  evidence row member := lt_trans (consistent.evidence row member) created_later

theorem Claimed.consistent {now : Time} {row : WorkItemRow} {work : WorkItem}
    (claimed : Claimed tables after now row work) (untouched : Untouched tables after)
    (consistent : tables.Consistent) : after.Consistent := by
  obtain ⟨member, queued, _, _, _, _, _, rfl⟩ := claimed
  have older : ∀ {other}, other ∈ updateWhere (fun other => other.id == row.id)
      (WorkItemRow.claimedAtTime now) tables.items → other.status.isPending = true →
      ∃ earlier ∈ tables.items, earlier.status.isPending = true ∧
        earlier.runId = other.runId ∧ earlier.crawlSnapshotId = other.crawlSnapshotId := by
    intro other stored pending
    rcases mem_updateWhere_cases stored with ⟨same, _⟩ | ⟨earlier, inTable, chosen, rfl⟩
    · exact ⟨other, same, pending, rfl, rfl⟩
    · have own : earlier = row := eq_of_key_eq consistent.placed.ids inTable member
        (beq_iff_eq.mp chosen)
      refine ⟨earlier, inTable, ?_, rfl, rfl⟩
      rw [own, queued]
      rfl
  have started : WorkItemRow.claimedAtTime now row ∈ updateWhere
      (fun other => other.id == row.id) (WorkItemRow.claimedAtTime now) tables.items :=
    mem_updateWhere_of_selected member (beq_self_eq_true _)
  have ids : (updateWhere (fun other => other.id == row.id) (WorkItemRow.claimedAtTime now)
      tables.items).map WorkItemRow.id = tables.items.map WorkItemRow.id := by
    apply updateWhere_map
    exact fun _ => rfl
  constructor
  · exact consistent.placed.moved untouched ids rfl
  · intro own stored done
    rcases mem_updateWhere_cases stored with ⟨same, _⟩ | ⟨earlier, _, chosen, rfl⟩
    · apply consistent.settled own same
      intro other inTable isOf
      by_cases chosen : other.id = row.id
      · have same : other = row := eq_of_key_eq consistent.placed.ids inTable member chosen
        subst same
        cases done _ started isOf
      · exact done other (mem_updateWhere_of_not inTable (beq_eq_false_iff_ne.mpr chosen)) isOf
    · rw [Bool.and_eq_true, beq_iff_eq] at chosen
      cases done _ started chosen.1.symm
  · intro other stored pending old observed same
    obtain ⟨earlier, inTable, was, run, snapshot⟩ := older stored pending
    rw [← run, ← snapshot] at same
    exact consistent.observed earlier inTable was old observed same
  · intro other stored pending old detected same
    obtain ⟨earlier, inTable, was, run, snapshot⟩ := older stored pending
    rw [← run, ← snapshot] at same
    exact consistent.detected earlier inTable was old detected same
  · exact consistent.observedDrawn
  · exact consistent.detectedDrawn
  · exact consistent.evidence

/-- A record call keeps the tables consistent, when it is made for a running item. -/
theorem Recorded.consistent {item : WorkItemRow} {change : WorkItemRow → WorkItemRow} {now : Time}
    (recorded : Recorded tables after item.id item.runId item.crawlSnapshotId change now)
    (consistent : tables.Consistent) (member : item ∈ tables.items)
    (running : item.status = .running)
    (keeps : ∀ row, (change row).id = row.id ∧ (change row).runId = row.runId ∧
      (change row).crawlSnapshotId = row.crawlSnapshotId) : after.Consistent := by
  have selected : (item.id == item.id && item.status == .running) = true := by
    rw [running, beq_self_eq_true]
    rfl
  have own : ∀ {row}, row ∈ tables.items →
      (row.id == item.id && row.status == .running) = true → row = item := by
    intro row inTable chosen
    rw [Bool.and_eq_true, beq_iff_eq] at chosen
    exact eq_of_key_eq consistent.placed.ids inTable member chosen.1
  have drawn : item.runId < tables.nextId :=
    consistent.placed.formed.itemsDrawn _ (List.mem_map_of_mem member)
  -- a pending row of the new table was pending, and it is not the item when rows were added
  have older : ∀ {row}, row ∈ after.items → row.status.isPending = true →
      (∃ earlier ∈ tables.items, earlier.status.isPending = true ∧
        earlier.runId = row.runId ∧ earlier.crawlSnapshotId = row.crawlSnapshotId) ∧
      ((∀ item, (change item).status.isPending = false) →
        ¬(item.runId = row.runId ∧ item.crawlSnapshotId = row.crawlSnapshotId)) := by
    intro row stored pending
    rw [recorded.items] at stored
    rcases mem_updateWhere_cases stored with ⟨same, skipped⟩ | ⟨earlier, inTable, chosen, rfl⟩
    · refine ⟨⟨row, same, pending, rfl, rfl⟩, fun _ pair => ?_⟩
      rw [← eq_of_fanOut_eq consistent.placed.pairs member same pair.1 pair.2, selected] at skipped
      cases skipped
    · refine ⟨⟨earlier, inTable, ?_, (keeps earlier).2.1.symm, (keeps earlier).2.2.symm⟩, ?_⟩
      · rw [own inTable chosen, running]
        rfl
      · intro ends
        rw [ends] at pending
        cases pending
  constructor
  · refine consistent.placed.moved recorded.untouched ?_ recorded.artifacts
    rw [recorded.items]
    exact updateWhere_map WorkItemRow.id (fun row => (keeps row).1) tables.items
  · intro own' stored done
    rw [recorded.runs] at stored
    rcases mem_updateWhere_cases stored with ⟨same, skipped⟩ | ⟨earlier, _, chosen, rfl⟩
    · apply consistent.settled own' same
      intro row inTable isOf
      apply done row _ isOf
      rw [recorded.items]
      apply mem_updateWhere_of_not inTable
      rw [← Bool.not_eq_true]
      intro chosen
      rw [own inTable chosen] at isOf
      rw [isOf, beq_self_eq_true] at skipped
      cases skipped
    · rw [beq_iff_eq] at chosen
      apply countItems_finished
      intro row inTable isOf
      exact done row inTable (isOf.trans chosen.symm)
  · intro row stored pending old observed same
    obtain ⟨⟨earlier, inTable, was, run, snapshot⟩, apart⟩ := older stored pending
    rcases recorded.observations old observed with before | ⟨pair, ends⟩
    · rw [← run, ← snapshot] at same
      exact consistent.observed earlier inTable was old before same
    · rw [pair.1, pair.2] at same
      exact apart ends same
  · intro row stored pending old detected same
    obtain ⟨⟨earlier, inTable, was, run, snapshot⟩, apart⟩ := older stored pending
    rcases recorded.detections old detected with before | ⟨pair, ends⟩
    · rw [← run, ← snapshot] at same
      exact consistent.detected earlier inTable was old before same
    · rw [pair.1, pair.2] at same
      exact apart ends same
  · intro old observed
    rcases recorded.observations old observed with before | ⟨pair, _⟩
    · exact lt_of_lt_of_le (consistent.observedDrawn old before) recorded.untouched.nextId
    · rw [pair.1]
      exact lt_of_lt_of_le drawn recorded.untouched.nextId
  · intro old detected
    rcases recorded.detections old detected with before | ⟨pair, _⟩
    · exact lt_of_lt_of_le (consistent.detectedDrawn old before) recorded.untouched.nextId
    · rw [pair.1]
      exact lt_of_lt_of_le drawn recorded.untouched.nextId
  · exact recorded.evidence consistent.evidence

end Invariant

section Commits

variable {tables : Tables}

def hasBounds (item : DetectionEvidence) : Prop :=
  (1 ≤ (btrim item.key).length ∧ (btrim item.key).length ≤ 128) ∧
    1 ≤ (btrim item.value).length ∧ (btrim item.value).length ≤ 2048

theorem admitsEvidence_iff {rows : List ReprocessedEvidenceRow} {row : ReprocessedEvidenceRow} :
    admitsEvidence rows row = true ↔ hasBounds row.evidence ∧ row ∉ rows := by
  unfold admitsEvidence hasBounds
  simp only [Bool.and_eq_true, decide_eq_true_eq, List.all_eq_true, bne_iff_ne, and_assoc]
  have absent : (∀ old ∈ rows, old ≠ row) ↔ row ∉ rows := by
    constructor
    · exact fun apart member => apart row member rfl
    · rintro absent old member rfl
      exact absent member
  rw [absent]

/-- The evidence of a new detection goes in exactly when each item fits the columns and
no item is there twice. -/
theorem insertEvidence_iff {detectionId : Uuid} {evidence : List DetectionEvidence}
    {rows : List ReprocessedEvidenceRow} :
    (∃ result, evidence.foldlM (insertEvidence detectionId) rows = some result) ↔
      evidence.Nodup ∧ ∀ item ∈ evidence, hasBounds item ∧
        { reprocessedDetectionId := detectionId, evidence := item } ∉ rows := by
  induction evidence generalizing rows with
  | nil => simp
  | cons item rest ih =>
      rw [List.foldlM_cons, List.nodup_cons]
      constructor
      · rintro ⟨result, success⟩
        obtain ⟨between, inserted, success⟩ := Option.bind_eq_some_iff.mp success
        obtain ⟨admitted, rfl⟩ := insertChecked_eq_some.mp inserted
        obtain ⟨distinct, others⟩ := ih.mp ⟨result, success⟩
        refine ⟨⟨fun again => ?_, distinct⟩, ?_⟩
        · exact (others item again).2 (List.mem_append_right _ (List.mem_singleton_self _))
        · intro other member
          rcases List.mem_cons.mp member with rfl | later
          · exact admitsEvidence_iff.mp admitted
          · obtain ⟨bounds, absent⟩ := others other later
            exact ⟨bounds, fun stored => absent (List.mem_append_left _ stored)⟩
      · rintro ⟨⟨apart, distinct⟩, all⟩
        have inserted : insertEvidence detectionId rows item =
            some (rows ++ [{ reprocessedDetectionId := detectionId, evidence := item }]) :=
          insertChecked_eq_some.mpr ⟨admitsEvidence_iff.mpr (all item List.mem_cons_self), rfl⟩
        have others : ∀ other ∈ rest, hasBounds other ∧
            { reprocessedDetectionId := detectionId, evidence := other } ∉
              rows ++ [{ reprocessedDetectionId := detectionId, evidence := item }] := by
          intro other later
          obtain ⟨bounds, absent⟩ := all other (List.mem_cons_of_mem item later)
          refine ⟨bounds, fun stored => ?_⟩
          rcases List.mem_append.mp stored with old | new
          · exact absent old
          · have same : other = item :=
              congrArg ReprocessedEvidenceRow.evidence (List.mem_singleton.mp new)
            exact apart (same ▸ later)
        obtain ⟨result, success⟩ := ih.mpr ⟨distinct, others⟩
        rw [inserted]
        exact ⟨result, success⟩

theorem refreshRun_commits
    (counts : ∀ runId, (tables.fanOut.countP fun pair => pair.1 == runId) < 2 ^ 31) (runId : Uuid)
    (now : Time) : ∃ after, refreshRun tables runId now = some after := by
  have total : (tables.countItems runId).total < 2 ^ 31 := by
    rw [Tables.countItems_total]
    exact counts runId
  have succeeded : (tables.countItems runId).succeeded < 2 ^ 31 :=
    lt_of_le_of_lt List.countP_le_length total
  have failed : (tables.countItems runId).failed < 2 ^ 31 :=
    lt_of_le_of_lt List.countP_le_length total
  unfold refreshRun Tables.updateRun
  dsimp only
  rw [if_pos ⟨total, succeeded, failed⟩]
  exact ⟨_, rfl⟩

/-- A failure of an item is always committed by the store itself. -/
theorem failure_commits (consistent : tables.Consistent) {row : WorkItemRow}
    (member : row ∈ tables.items) (summary : Text) (retryAt : Time) (terminal : Bool)
    (completedAt : Time) : ∃ after, recordReprocessingFailure tables row.id summary retryAt terminal
      completedAt = some after := by
  have found : tables.items.find? (fun other => other.id == row.id) = some row :=
    (find?_key_eq_some consistent.placed.ids).mpr ⟨member, rfl⟩
  unfold recordReprocessingFailure
  rw [found]
  apply refreshRun_commits
  have same : (tables.updateItem row.id
      (if terminal then WorkItemRow.deadLetteredAt (boundedSummary summary) completedAt
        else WorkItemRow.requeuedAt (boundedSummary summary) retryAt completedAt)).fanOut =
      tables.fanOut := by
    apply updateWhere_map
    intro item
    cases terminal <;> rfl
  rw [same]
  exact consistent.placed.counts

/-- A detection that is the first one of its item goes in exactly when it fits. -/
theorem insertDetection_iff {work : WorkItem} {evaluation : ReprocessingEvaluation}
    (undetected : ∀ old ∈ tables.detections,
      ¬(old.runId = work.runId ∧ old.crawlSnapshotId = work.snapshotId))
    (drawn : ∀ row ∈ tables.evidence, row.reprocessedDetectionId < tables.nextId) :
    (∃ after, tables.insertDetection work evaluation.technologyVersion evaluation.detection =
      some after) ↔ Recordable evaluation := by
  unfold Recordable
  cases evaluation.detection with
  | none =>
      constructor
      · exact fun _ detection none => nomatch none
      · exact fun _ => ⟨tables, rfl⟩
  | some detection =>
      constructor
      · rintro ⟨after, success⟩ own same
        cases same
        obtain ⟨detections, inserted, success⟩ := Option.bind_eq_some_iff.mp success
        obtain ⟨evidence, folded, _⟩ := Option.bind_eq_some_iff.mp success
        obtain ⟨admitted, _⟩ := insertChecked_eq_some.mp inserted
        obtain ⟨distinct, bounds⟩ := insertEvidence_iff.mp ⟨evidence, folded⟩
        refine ⟨?_, distinct, fun item member => (bounds item member).1⟩
        intro version known
        have valid := (Bool.and_eq_true_iff.mp admitted).1
        rw [known] at valid
        simpa using valid
      · intro fits
        obtain ⟨version, distinct, bounds⟩ := fits detection rfl
        have fresh : ∀ item, ({ reprocessedDetectionId := tables.nextId, evidence := item } :
            ReprocessedEvidenceRow) ∉ tables.evidence :=
          fun item stored => absurd (drawn _ stored) (lt_irrefl _)
        have unused : ∀ old ∈ tables.detections, (!(old.runId == work.runId &&
            old.crawlSnapshotId == work.snapshotId && old.technologyId == work.technologyId &&
            old.detectionRuleVersionId == work.detectionRuleVersionId)) = true := by
          intro old stored
          rw [Bool.not_eq_true', ← Bool.not_eq_true]
          intro equal
          simp only [Bool.and_eq_true, beq_iff_eq] at equal
          exact undetected old stored equal.1.1
        have admitted : admitsReprocessed tables.detections
            { id := tables.nextId
              runId := work.runId
              crawlSnapshotId := work.snapshotId
              technologyId := work.technologyId
              detectionRuleVersionId := work.detectionRuleVersionId
              confidence := detection.confidence.1
              technologyVersion := evaluation.technologyVersion
              observedAt := work.capturedAt } = true := by
          unfold admitsReprocessed
          rw [Bool.and_eq_true, List.all_eq_true]
          refine ⟨?_, unused⟩
          cases known : evaluation.technologyVersion with
          | none => rfl
          | some text => simpa using version text known
        obtain ⟨evidence, folded⟩ := insertEvidence_iff.mpr
          ⟨distinct, fun item member => ⟨bounds item member, fresh item⟩⟩
        have inserted := insertChecked_eq_some.mpr ⟨admitted, rfl⟩
        unfold Tables.insertDetection
        simp only [inserted, folded, Option.bind_eq_bind, Option.bind_some]
        exact ⟨_, rfl⟩

theorem insertObservation_commits {work : WorkItem}
    (unobserved : ∀ old ∈ tables.observations,
      ¬(old.runId = work.runId ∧ old.crawlSnapshotId = work.snapshotId))
    (status : RuleObservationStatus) : ∃ rows,
      tables.insertObservation work status = some { tables with observations := rows } := by
  refine ⟨_, Option.map_eq_some_iff.mpr ⟨_, insertChecked_eq_some.mpr ⟨?_, rfl⟩, rfl⟩⟩
  rw [List.all_eq_true]
  intro old stored
  rw [Bool.not_eq_true', ← Bool.not_eq_true]
  intro equal
  simp only [Bool.and_eq_true, beq_iff_eq] at equal
  exact unobserved old stored equal.1

/-- A success of a pending item is committed exactly when the evaluation fits the columns. -/
theorem success_commits_iff (consistent : tables.Consistent) {row : WorkItemRow} {work : WorkItem}
    (member : row ∈ tables.items) (pending : row.status.isPending = true)
    (runId : row.runId = work.runId) (snapshotId : row.crawlSnapshotId = work.snapshotId)
    (evaluation : ReprocessingEvaluation) (completedAt : Time) :
    (∃ after, recordReprocessingSuccess tables work evaluation completedAt = some after) ↔
      Recordable evaluation := by
  have unobserved := consistent.observed row member pending
  have undetected := consistent.detected row member pending
  rw [runId, snapshotId] at unobserved undetected
  obtain ⟨rows, inserted⟩ := insertObservation_commits unobserved evaluation.observation.status
  have detection : (∃ after, Tables.insertDetection { tables with observations := rows } work
      evaluation.technologyVersion evaluation.detection = some after) ↔ Recordable evaluation :=
    insertDetection_iff undetected consistent.evidence
  rw [← detection]
  constructor
  · rintro ⟨after, success⟩
    obtain ⟨observed, observation, success⟩ := Option.bind_eq_some_iff.mp success
    obtain ⟨detected, inserted', _⟩ := Option.bind_eq_some_iff.mp success
    rw [inserted] at observation
    cases observation
    exact ⟨detected, inserted'⟩
  · rintro ⟨detected, success⟩
    have counts : ∀ runId, ((detected.updateItem work.id
        (WorkItemRow.succeededAtTime completedAt)).fanOut.countP fun pair => pair.1 == runId) <
          2 ^ 31 := by
      intro id
      have fanOut : (detected.updateItem work.id
          (WorkItemRow.succeededAtTime completedAt)).fanOut = detected.fanOut := by
        apply updateWhere_map
        exact fun _ => rfl
      rw [fanOut, Tables.fanOut, (insertDetection_inserted success).items]
      exact consistent.placed.counts id
    obtain ⟨after, refreshed⟩ := refreshRun_commits counts work.runId completedAt
    refine ⟨after, Option.bind_eq_some_iff.mpr ⟨_, inserted, ?_⟩⟩
    exact Option.bind_eq_some_iff.mpr ⟨detected, success, refreshed⟩

end Commits

section Worlds

variable {maxAttempts : Nat} {world : World}

/-- Every live worker has a running item of its own. -/
structure World.Sound (world : World) : Prop where
  consistent : world.tables.Consistent
  live : ∀ work ∈ world.live, ∃ row ∈ world.tables.items, row.status = .running ∧
    row.id = work.id ∧ row.runId = work.runId ∧ row.crawlSnapshotId = work.snapshotId ∧
      row.attemptCount = work.attemptCount
  liveIds : (world.live.map WorkItem.id).Nodup

/-- Every running item has a live worker, and every queued one can be tried again. -/
structure World.Attended (world : World) : Prop where
  running : ∀ row ∈ world.tables.items, row.status = .running → world.isLive row.id
  queued : ∀ row ∈ world.tables.items, row.status = .queued → row.attemptCount + 1 < 2 ^ 15

theorem empty_sound (kinds : List String) : (World.empty kinds).Sound where
  consistent := by
    constructor
    · refine ⟨empty_wellFormed kinds, ?_, ?_, ?_, ?_, ?_, ?_, ?_, ?_⟩
      all_goals simp [World.empty, Tables.empty, Tables.runIdentities, Tables.fanOut]
    all_goals simp [World.empty, Tables.empty]
  live := by simp [World.empty]
  liveIds := List.nodup_nil

theorem empty_attended (kinds : List String) : (World.empty kinds).Attended := by
  constructor <;> simp [World.empty, Tables.empty]

/-- What the record calls of `process_next` do to the store. -/
def RecordCall (tables : Tables) (call : WorkItem → Option Tables) : Prop :=
  ∀ work, ∀ row ∈ tables.items, row.id = work.id → row.runId = work.runId →
    row.crawlSnapshotId = work.snapshotId → ∀ after, call work = some after →
      ∃ change now, Recorded tables after row.id row.runId row.crawlSnapshotId change now ∧
        (∀ row, (change row).id = row.id ∧ (change row).runId = row.runId ∧
          (change row).crawlSnapshotId = row.crawlSnapshotId) ∧
        ∀ row, (change row).status ≠ .running

theorem success_call (tables : Tables) (evaluation : ReprocessingEvaluation) (completedAt : Time)
    (committed : Bool) : RecordCall tables fun work =>
      if committed then recordReprocessingSuccess tables work evaluation completedAt else none := by
  intro work row _ id run snapshot after success
  cases committed with
  | false => cases success
  | true =>
      have recorded := success_recorded success
      rw [← id, ← run, ← snapshot] at recorded
      refine ⟨_, completedAt, recorded, fun _ => ⟨rfl, rfl, rfl⟩, fun row => ?_⟩
      change WorkItemStatus.succeeded ≠ .running
      decide

theorem failure_call {tables : Tables} (unique : (tables.items.map WorkItemRow.id).Nodup)
    (summary : Text) (retryAt completedAt : Time) (committed : Bool) :
    RecordCall tables fun work =>
      if committed then recordReprocessingFailure tables work.id summary retryAt
        (decide (maxAttempts ≤ work.attemptCount)) completedAt
      else none := by
  intro work row member id _ _ after success
  cases committed with
  | false => cases success
  | true =>
      change recordReprocessingFailure tables work.id summary retryAt _ completedAt = _ at success
      rw [← id] at success
      refine ⟨_, completedAt, failure_recorded unique member success, ?_, ?_⟩
      · intro row
        split <;> exact ⟨rfl, rfl, rfl⟩
      · intro row
        split
        · change WorkItemStatus.deadLettered ≠ .running
          decide
        · change WorkItemStatus.queued ≠ .running
          decide

theorem isLive_filter {itemId other : Uuid} (apart : other ≠ itemId) {live : List WorkItem}
    {work : WorkItem} (member : work ∈ live) (own : work.id = other) :
    work ∈ live.filter fun work => work.id != itemId := by
  rw [List.mem_filter]
  refine ⟨member, ?_⟩
  rw [own]
  exact bne_iff_ne.mpr apart

theorem liveIds_filter {live : List WorkItem} (unique : (live.map WorkItem.id).Nodup)
    (p : WorkItem → Bool) : ((live.filter p).map WorkItem.id).Nodup :=
  unique.sublist (List.filter_sublist.map WorkItem.id)

/-- A record call of a live worker: it commits, or its worker is lost to the item. -/
theorem record_cases (sound : world.Sound) (itemId : Uuid) (call : WorkItem → Option Tables) :
    (¬world.isLive itemId ∧ world.record itemId call = world) ∨
      ∃ work ∈ world.live, work.id = itemId ∧
        (∀ other ∈ world.live, other.id = itemId → other = work) ∧
        world.record itemId call = {
          tables := (call work).getD world.tables
          live := world.live.filter fun other => other.id != itemId } := by
  unfold World.record
  cases found : world.live.find? fun work => work.id == itemId with
  | none =>
      refine .inl ⟨?_, rfl⟩
      rintro ⟨work, member, own⟩
      exact List.find?_eq_none.mp found work member (beq_iff_eq.mpr own)
  | some work =>
      obtain ⟨member, own⟩ := find?_eq_some_mem found
      rw [beq_iff_eq] at own
      refine .inr ⟨work, member, own, ?_, rfl⟩
      intro other inLive same
      exact eq_of_key_eq sound.liveIds inLive member (same.trans own.symm)

theorem World.Sound.record (sound : world.Sound) (itemId : Uuid)
    {call : WorkItem → Option Tables} (calls : RecordCall world.tables call) :
    (world.record itemId call).Sound := by
  rcases record_cases sound itemId call with ⟨_, same⟩ | ⟨work, member, own, _, same⟩
  · rw [same]
    exact sound
  · rw [same]
    obtain ⟨row, inTable, running, id, runId, snapshotId, _⟩ := sound.live work member
    cases success : call work with
    | none =>
        refine ⟨sound.consistent, ?_, liveIds_filter sound.liveIds _⟩
        intro other inLive
        exact sound.live other (List.mem_of_mem_filter inLive)
    | some after =>
        obtain ⟨change, now, recorded, keeps, _⟩ :=
          calls work row inTable id runId snapshotId after success
        refine ⟨recorded.consistent sound.consistent inTable running keeps, ?_,
          liveIds_filter sound.liveIds _⟩
        intro other inLive
        obtain ⟨inOld, apart⟩ := List.mem_filter.mp inLive
        obtain ⟨own', inTable', fields⟩ := sound.live other inOld
        refine ⟨own', ?_, fields⟩
        change own' ∈ after.items
        rw [recorded.items]
        apply mem_updateWhere_of_not inTable'
        have ne : own'.id ≠ row.id := by
          rw [fields.2.1, id, own]
          exact bne_iff_ne.mp apart
        rw [beq_eq_false_iff_ne.mpr ne, Bool.false_and]

/-- Where the tables only gain items, and those they have stay. -/
theorem World.Sound.grown {after : Tables} (sound : world.Sound) (consistent : after.Consistent)
    (kept : ∀ row ∈ world.tables.items, row ∈ after.items) :
    World.Sound { world with tables := after } where
  consistent := consistent
  live work member := by
    obtain ⟨row, inTable, fields⟩ := sound.live work member
    exact ⟨row, kept row inTable, fields⟩
  liveIds := sound.liveIds

/-- What a start call leaves: nothing new, or a run with queued items. -/
theorem start_cases (consistent : world.tables.Consistent) (call : StartCall) :
    world.tables.step (.start call) = world.tables ∨
      ∃ version : PublishedVersion, world.tables.step (.start call) = call.created world.tables version.id ∧
        (call.created world.tables version.id).Consistent := by
  cases result : call.result world.tables with
  | error reason => exact .inl (step_start_of_error result)
  | ok answer =>
      obtain ⟨version, named, ⟨same, _⟩ | ⟨unused, _, same, short⟩⟩ := result_cases result
      · exact .inl ((step_start_of_ok result).trans same)
      · refine .inr ⟨version, (step_start_of_ok result).trans same, ?_⟩
        exact consistent.created unused named short

theorem capture_items (tables : Tables) (snapshot : SnapshotRow)
    (artifact : Option RawArtifactMetadata) :
    (tables.capture snapshot artifact).items = tables.items := by
  unfold Tables.capture
  split <;> rfl

theorem step_sound (maxAttempts : Nat) (sound : world.Sound) (event : Event) :
    (world.step maxAttempts event).Sound := by
  cases event with
  | publish technologyId rule =>
      exact sound.grown (sound.consistent.publish technologyId rule) fun _ member => member
  | capture snapshot artifact =>
      apply sound.grown (sound.consistent.capture snapshot artifact)
      intro row member
      rw [capture_items]
      exact member
  | start call =>
      rcases start_cases sound.consistent call with same | ⟨version, same, consistent⟩
      · change World.Sound { world with tables := world.tables.step (.start call) }
        rw [same]
        exact sound
      · change World.Sound { world with tables := world.tables.step (.start call) }
        rw [same]
        exact sound.grown consistent fun row member => List.mem_append_left _ member
  | claim now =>
      dsimp only [World.step]
      split
      next after work success =>
        obtain ⟨row, claimed⟩ := claim_claimed success
        have consistent := claimed.consistent (claim_untouched success) sound.consistent
        obtain ⟨member, queued, _, id, runId, snapshotId, attemptCount, rfl⟩ := claimed
        have apart : ∀ other ∈ world.live, other.id ≠ row.id := by
          intro other inLive same
          obtain ⟨own, inTable, running, ownId, _⟩ := sound.live other inLive
          have equal : own = row := eq_of_key_eq sound.consistent.placed.ids inTable member
            (ownId.trans same)
          rw [equal, queued] at running
          cases running
        refine ⟨consistent, ?_, ?_⟩
        · intro other inLive
          rcases List.mem_append.mp inLive with old | new
          · obtain ⟨own, inTable, fields⟩ := sound.live other old
            refine ⟨own, mem_updateWhere_of_not inTable ?_, fields⟩
            rw [beq_eq_false_iff_ne, fields.2.1]
            exact apart other old
          · rw [List.mem_singleton.mp new]
            exact ⟨_, mem_updateWhere_of_selected member (beq_self_eq_true _), rfl, id.symm,
              runId.symm, snapshotId.symm, attemptCount.symm⟩
        · apply nodup_map_concat sound.liveIds
          intro other old
          rw [id]
          exact apart other old
      next => exact sound
  | crash itemId =>
      refine ⟨sound.consistent, ?_, liveIds_filter sound.liveIds _⟩
      intro work member
      exact sound.live work (List.mem_of_mem_filter member)
  | succeed itemId evaluation completedAt committed =>
      exact sound.record itemId (success_call _ evaluation completedAt committed)
  | fail itemId summary retryAt completedAt committed =>
      exact sound.record itemId
        (failure_call sound.consistent.placed.ids summary retryAt completedAt committed)

theorem after_sound (kinds : List String) (maxAttempts : Nat) (events : List Event) :
    (World.after kinds maxAttempts events).Sound :=
  run_invariant (P := World.Sound) (fun _ event sound => step_sound maxAttempts sound event)
    (World.empty kinds) events (empty_sound kinds)

theorem isLive_of_filter {itemId other : Uuid} (apart : other ≠ itemId)
    (live : world.isLive other) (tables : Tables) :
    World.isLive { tables := tables, live := world.live.filter fun work => work.id != itemId }
      other := by
  obtain ⟨work, member, own⟩ := live
  exact ⟨work, isLive_filter apart member own, own⟩

theorem not_isLive_filter (itemId : Uuid) (live : List WorkItem) (tables : Tables) :
    ¬World.isLive { tables := tables, live := live.filter fun work => work.id != itemId }
      itemId := by
  rintro ⟨work, member, own⟩
  exact bne_iff_ne.mp (List.mem_filter.mp member).2 own

/-- A record call that commits leaves the item as `change` does, and the others as they are. -/
theorem World.Attended.record (sound : world.Sound) (attended : world.Attended) {itemId : Uuid}
    {call : WorkItem → Option Tables} (calls : RecordCall world.tables call)
    (commits : ∀ work ∈ world.live, work.id = itemId → ∃ after, call work = some after ∧
      ∀ row ∈ after.items, row.id = itemId → row.status = .queued → row.attemptCount + 1 < 2 ^ 15) :
    (world.record itemId call).Attended := by
  rcases record_cases sound itemId call with ⟨_, same⟩ | ⟨work, member, own, _, same⟩
  · rw [same]
    exact attended
  · rw [same]
    obtain ⟨after, success, requeued⟩ := commits work member own
    obtain ⟨item, inTable, _, id, runId, snapshotId, _⟩ := sound.live work member
    obtain ⟨change, now, recorded, keeps, ended⟩ :=
      calls work item inTable id runId snapshotId after success
    rw [success, Option.getD_some]
    have itemIs : item.id = itemId := id.trans own
    constructor
    · intro row stored running
      change row ∈ after.items at stored
      rw [recorded.items] at stored
      rcases mem_updateWhere_cases stored with ⟨earlier, skipped⟩ | ⟨earlier, _, _, rfl⟩
      · have apart : row.id ≠ itemId := by
          intro equal
          rw [equal, itemIs, running, beq_self_eq_true] at skipped
          cases skipped
        exact isLive_of_filter apart (attended.running row earlier running) after
      · exact absurd running (ended earlier)
    · intro row stored queued
      by_cases equal : row.id = itemId
      · exact requeued row stored equal queued
      · change row ∈ after.items at stored
        rw [recorded.items] at stored
        rcases mem_updateWhere_cases stored with ⟨earlier, _⟩ | ⟨earlier, _, chosen, rfl⟩
        · exact attended.queued row earlier queued
        · rw [Bool.and_eq_true, beq_iff_eq] at chosen
          exact absurd ((keeps earlier).1.trans (chosen.1.trans itemIs)) equal

theorem success_attended {itemId : Uuid} {evaluation : ReprocessingEvaluation} {completedAt : Time}
    {committed : Bool} (sound : world.Sound)
    (attends : Attends maxAttempts world (.succeed itemId evaluation completedAt committed)) :
    ∀ work ∈ world.live, work.id = itemId → ∃ after,
      (if committed then recordReprocessingSuccess world.tables work evaluation completedAt
        else none) = some after ∧
      ∀ row ∈ after.items, row.id = itemId → row.status = .queued →
        row.attemptCount + 1 < 2 ^ 15 := by
  intro work member own
  obtain ⟨rfl, fits⟩ := attends ⟨work, member, own⟩
  obtain ⟨item, inTable, running, id, runId, snapshotId, _⟩ := sound.live work member
  have pending : item.status.isPending = true := by
    rw [running]
    rfl
  obtain ⟨after, success⟩ := (success_commits_iff sound.consistent inTable pending runId snapshotId
    evaluation completedAt).mpr fits
  refine ⟨after, success, ?_⟩
  intro row stored equal queued
  rw [(success_recorded success).items] at stored
  rcases mem_updateWhere_cases stored with ⟨earlier, skipped⟩ | ⟨earlier, _, _, rfl⟩
  · have same : row = item := eq_of_key_eq sound.consistent.placed.ids earlier inTable
      (equal.trans (own.symm.trans id.symm))
    rw [same, running] at queued
    cases queued
  · cases queued

theorem failure_attended {itemId : Uuid} {summary : Text} {retryAt completedAt : Time}
    {committed : Bool} (sound : world.Sound)
    (attends : Attends maxAttempts world (.fail itemId summary retryAt completedAt committed)) :
    ∀ work ∈ world.live, work.id = itemId → ∃ after,
      (if committed then recordReprocessingFailure world.tables work.id summary retryAt
          (decide (maxAttempts ≤ work.attemptCount)) completedAt
        else none) = some after ∧
      ∀ row ∈ after.items, row.id = itemId → row.status = .queued →
        row.attemptCount + 1 < 2 ^ 15 := by
  intro work member own
  obtain ⟨rfl, few⟩ := attends work member own
  obtain ⟨item, inTable, running, id, _, _, attempts⟩ := sound.live work member
  obtain ⟨after, success⟩ := failure_commits sound.consistent inTable summary retryAt
    (decide (maxAttempts ≤ work.attemptCount)) completedAt
  have recorded := failure_recorded sound.consistent.placed.ids inTable success
  rw [id] at success
  refine ⟨after, success, ?_⟩
  intro row stored equal queued
  rw [recorded.items] at stored
  rcases mem_updateWhere_cases stored with ⟨earlier, skipped⟩ | ⟨earlier, inOld, chosen, rfl⟩
  · have same : row = item := eq_of_key_eq sound.consistent.placed.ids earlier inTable
      (equal.trans (own.symm.trans id.symm))
    rw [same, running] at queued
    cases queued
  · rw [Bool.and_eq_true, beq_iff_eq] at chosen
    have same : earlier = item := eq_of_key_eq sound.consistent.placed.ids inOld inTable chosen.1
    by_cases terminal : maxAttempts ≤ work.attemptCount
    · rw [decide_eq_true terminal] at queued
      cases queued
    · rw [decide_eq_false terminal, same]
      change item.attemptCount + 1 < 2 ^ 15
      rw [attempts]
      exact few.resolve_left terminal

theorem step_attended (sound : world.Sound) (attended : world.Attended) {event : Event}
    (attends : Attends maxAttempts world event) : (world.step maxAttempts event).Attended := by
  cases event with
  | publish technologyId rule => exact ⟨attended.running, attended.queued⟩
  | capture snapshot artifact =>
      change World.Attended { world with tables := world.tables.capture snapshot artifact }
      constructor
      · intro row stored
        change row ∈ (world.tables.capture snapshot artifact).items at stored
        rw [capture_items] at stored
        exact attended.running row stored
      · intro row stored
        change row ∈ (world.tables.capture snapshot artifact).items at stored
        rw [capture_items] at stored
        exact attended.queued row stored
  | start call =>
      change World.Attended { world with tables := world.tables.step (.start call) }
      rcases start_cases sound.consistent call with same | ⟨version, same, _⟩
      · rw [same]
        exact attended
      · rw [same]
        constructor
        · intro row stored running
          rcases List.mem_append.mp stored with old | new
          · exact attended.running row old running
          · obtain ⟨own, _, _, snapshot, _, rfl⟩ := mem_itemsFor new
            cases running
        · intro row stored queued
          rcases List.mem_append.mp stored with old | new
          · exact attended.queued row old queued
          · obtain ⟨own, _, _, snapshot, _, rfl⟩ := mem_itemsFor new
            change 0 + 1 < 2 ^ 15
            decide
  | claim now =>
      dsimp only [World.step]
      split
      next after work success =>
        obtain ⟨item, claimed⟩ := claim_claimed success
        obtain ⟨_, _, _, id, _, _, _, rfl⟩ := claimed
        constructor
        · intro row stored running
          rcases mem_updateWhere_cases stored with ⟨earlier, _⟩ | ⟨earlier, _, chosen, rfl⟩
          · obtain ⟨other, live, own⟩ := attended.running row earlier running
            exact ⟨other, List.mem_append_left _ live, own⟩
          · exact ⟨work, List.mem_append_right _ (List.mem_singleton_self work),
              id.trans (beq_iff_eq.mp chosen).symm⟩
        · intro row stored queued
          rcases mem_updateWhere_cases stored with ⟨earlier, _⟩ | ⟨earlier, _, _, rfl⟩
          · exact attended.queued row earlier queued
          · cases queued
      next => exact attended
  | crash itemId =>
      refine ⟨?_, attended.queued⟩
      intro row stored running
      have live := attended.running row stored running
      have apart : row.id ≠ itemId := fun equal => attends (equal ▸ live)
      exact isLive_of_filter apart live world.tables
  | succeed itemId evaluation completedAt committed =>
      exact attended.record sound (success_call _ evaluation completedAt committed)
        (success_attended sound attends)
  | fail itemId summary retryAt completedAt committed =>
      exact attended.record sound
        (failure_call sound.consistent.placed.ids summary retryAt completedAt committed)
        (failure_attended sound attends)

end Worlds

section Progress

variable {maxAttempts : Nat} {world : World}

theorem sourceOf_isSome {tables : Tables} (placed : tables.Placed) {row : WorkItemRow}
    (member : row ∈ tables.items) : (tables.sourceOf row).isSome = true := by
  have pair : (row.runId, row.crawlSnapshotId) ∈ tables.fanOut := List.mem_map_of_mem member
  obtain ⟨identity, listed, own⟩ := placed.runOf _ pair
  obtain ⟨stored, inRuns, rfl⟩ := List.mem_map.mp listed
  obtain ⟨snapshot, inSnapshots, snapshotOf⟩ := placed.snapshotOf _ pair
  have hasRun : (tables.runs.find? fun run => run.id == row.runId).isSome = true :=
    List.find?_isSome.mpr ⟨stored, inRuns, beq_iff_eq.mpr own⟩
  have hasSnapshot : (tables.snapshots.find? fun snapshot =>
      snapshot.id == row.crawlSnapshotId).isSome = true :=
    List.find?_isSome.mpr ⟨snapshot, inSnapshots, beq_iff_eq.mpr snapshotOf⟩
  obtain ⟨run, foundRun⟩ := Option.isSome_iff_exists.mp hasRun
  obtain ⟨source, foundSnapshot⟩ := Option.isSome_iff_exists.mp hasSnapshot
  obtain ⟨version, inVersions, versionOf⟩ :=
    placed.versionOf _ (List.mem_map_of_mem (find?_eq_some_mem foundRun).1)
  have hasVersion : (tables.versions.find? fun version =>
      version.id == run.detectionRuleVersionId).isSome = true :=
    List.find?_isSome.mpr ⟨version, inVersions, beq_iff_eq.mpr versionOf⟩
  obtain ⟨published, foundVersion⟩ := Option.isSome_iff_exists.mp hasVersion
  unfold Tables.sourceOf
  simp only [foundRun, foundSnapshot, foundVersion, Option.bind_eq_bind, Option.bind_some,
    Option.isSome_some]

theorem artifactOf_commits {tables : Tables} (placed : tables.Placed) (snapshotId : Uuid) :
    ∃ artifact, tables.artifactOf snapshotId = .ok artifact := by
  unfold Tables.artifactOf
  split
  next => exact ⟨none, rfl⟩
  next row found =>
    obtain ⟨artifact, built⟩ := placed.artifacts row (find?_eq_some_mem found).1
    rw [built]
    exact ⟨some artifact, rfl⟩

/-- While an item is due and every queued one can be tried again, a claim finds an item. -/
theorem claim_commits {tables : Tables} (consistent : tables.Consistent)
    (queued : ∀ row ∈ tables.items, row.status = .queued → row.attemptCount + 1 < 2 ^ 15)
    {row : WorkItemRow} (member : row ∈ tables.items) (status : row.status = .queued) {now : Time}
    (due : row.nextAttemptAt ≤ now) :
    ∃ after work, claimNextReprocessingItem tables now = .ok (after, some work) := by
  have isDue : row.isDue now = true := by
    rw [WorkItemRow.isDue, status, decide_eq_true due]
    rfl
  have candidate : row ∈ (tables.items.filter fun item =>
      item.isDue now && (tables.sourceOf item).isSome).insertionSort
        fun left right => left.claimedBefore right := by
    rw [List.mem_insertionSort, List.mem_filter, isDue, sourceOf_isSome consistent.placed member]
    exact ⟨member, rfl⟩
  cases found : tables.nextDue now with
  | none =>
      unfold Tables.nextDue at found
      rw [List.head?_eq_none_iff.mp found] at candidate
      cases candidate
  | some first =>
      obtain ⟨inTable, firstDue, sourced⟩ := nextDue_eq_some found
      obtain ⟨⟨snapshot, version⟩, source⟩ := Option.isSome_iff_exists.mp sourced
      obtain ⟨artifact, built⟩ := artifactOf_commits consistent.placed first.crawlSnapshotId
      have few : first.attemptCount + 1 < 2 ^ 15 := by
        apply queued first inTable
        rw [WorkItemRow.isDue, Bool.and_eq_true, beq_iff_eq] at firstDue
        exact firstDue.1
      unfold claimNextReprocessingItem
      rw [found]
      dsimp only
      rw [decide_eq_true few, source, built]
      exact ⟨_, _, rfl⟩

theorem exists_due (rows : List WorkItemRow) : ∃ now : Time, ∀ row ∈ rows, row.nextAttemptAt ≤ now := by
  induction rows with
  | nil => exact ⟨0, by simp⟩
  | cons first rest ih =>
      obtain ⟨now, above⟩ := ih
      refine ⟨max first.nextAttemptAt now, ?_⟩
      intro row member
      rcases List.mem_cons.mp member with rfl | later
      · exact le_max_left _ _
      · exact le_trans (above row later) (le_max_right _ _)

/-- The queued items count twice, the running ones once. -/
def Tables.work (tables : Tables) : Nat :=
  tables.items.countP (fun row => row.status == .queued) +
    tables.items.countP fun row => row.status.isPending

theorem Claimed.work_lt {tables after : Tables} {now : Time} {row : WorkItemRow} {work : WorkItem}
    (claimed : Claimed tables after now row work) (consistent : tables.Consistent) :
    after.work < tables.work := by
  obtain ⟨member, queued, _, _, _, _, _, rfl⟩ := claimed
  have fewer : (updateWhere (fun other => other.id == row.id) (WorkItemRow.claimedAtTime now)
      tables.items).countP (fun row => row.status == .queued) <
        tables.items.countP fun row => row.status == .queued := by
    refine countP_updateWhere_lt _ _ _ _ ?_ member (beq_self_eq_true row.id) ?_ ?_
    · intro other _ impossible
      cases impossible
    · rw [queued]
      rfl
    · rfl
  have same : (updateWhere (fun other => other.id == row.id) (WorkItemRow.claimedAtTime now)
      tables.items).countP (fun row => row.status.isPending) =
        tables.items.countP fun row => row.status.isPending := by
    apply countP_updateWhere_eq
    intro other inTable chosen
    rw [eq_of_key_eq consistent.placed.ids inTable member (beq_iff_eq.mp chosen), queued]
    rfl
  exact Nat.add_lt_add_of_lt_of_le fewer same.le

theorem Recorded.work_lt {tables after : Tables} {item : WorkItemRow} {completedAt now : Time}
    {runId snapshotId : Uuid} (recorded : Recorded tables after item.id runId snapshotId
      (WorkItemRow.succeededAtTime completedAt) now)
    (member : item ∈ tables.items) (running : item.status = .running) :
    after.work < tables.work := by
  have selected : (item.id == item.id && item.status == .running) = true := by
    rw [running, beq_self_eq_true]
    rfl
  unfold Tables.work
  rw [recorded.items]
  apply Nat.add_lt_add_of_le_of_lt
  · apply countP_updateWhere_le
    intro other _ impossible
    cases impossible
  · refine countP_updateWhere_lt _ _ _ _ ?_ member selected ?_ ?_
    · intro other _ impossible
      cases impossible
    · rw [running]
      rfl
    · rfl

theorem step_claim_of_ok (maxAttempts : Nat) {now : Time} {after : Tables} {work : WorkItem}
    (success : claimNextReprocessingItem world.tables now = .ok (after, some work)) :
    world.step maxAttempts (.claim now) = { tables := after, live := world.live ++ [work] } := by
  dsimp only [World.step]
  rw [success]

theorem attends_claim (maxAttempts : Nat) (world : World) (now : Time) : Attends maxAttempts world (.claim now) := trivial

/-- A queued item is claimed after finitely many claims. -/
theorem exists_claim (maxAttempts : Nat) (world : World) (sound : world.Sound)
    (attended : world.Attended) {row : WorkItemRow} (member : row ∈ world.tables.items)
    (queued : row.status = .queued) : ∃ later now after work,
      claimNextReprocessingItem (run (World.step maxAttempts) world later).tables now =
        .ok (after, some work) ∧ work.id = row.id := by
  induction left : world.tables.work using Nat.strongRecOn generalizing world with
  | ind n ih =>
    obtain ⟨now, due⟩ := exists_due world.tables.items
    obtain ⟨after, work, success⟩ := claim_commits sound.consistent attended.queued member queued
      (due row member)
    obtain ⟨claimedRow, claimed⟩ := claim_claimed success
    by_cases own : work.id = row.id
    · exact ⟨[], now, after, work, success, own⟩
    · have smaller := claimed.work_lt sound.consistent
      have next := step_claim_of_ok maxAttempts success
      have kept : row ∈ after.items := by
        rw [claimed.same]
        apply mem_updateWhere_of_not member
        rw [beq_eq_false_iff_ne]
        exact fun same => own (claimed.id.trans same.symm)
      have sound' := step_sound maxAttempts sound (.claim now)
      have attended' := step_attended sound attended (attends_claim maxAttempts world now)
      rw [next] at sound' attended'
      obtain ⟨later, now', after', work', found, same⟩ :=
        ih after.work (left ▸ smaller) _ sound' attended' kept rfl
      refine ⟨.claim now :: later, now', after', work', ?_, same⟩
      rw [run_cons, next]
      exact found

/-- What a replay records that finds nothing. -/
def nothingFound : ReprocessingEvaluation where
  detection := none
  observation := {
    technologySlug := ⟨"shopify".toList, by decide⟩
    technologyCategorySlug := ⟨"ecommerce".toList, by decide⟩
    ruleSlug := ⟨"shopify".toList, by decide⟩
    ruleVersion := ⟨1, by decide⟩
    status := .unknown }
  technologyVersion := none

theorem nothingFound_recordable : Recordable nothingFound := fun _ found => nomatch found

/-- As long as an item is pending, a claim or a record call takes the work further. -/
theorem exists_progress (maxAttempts : Nat) (world : World) (sound : world.Sound)
    (attended : world.Attended)
    (pending : ¬∀ row ∈ world.tables.items, row.status.isPending = false) :
    ∃ event, Attends maxAttempts world event ∧
      (world.step maxAttempts event).tables.work < world.tables.work := by
  cases live : world.live with
  | nil =>
      simp only [not_forall, Bool.not_eq_false] at pending
      obtain ⟨row, member, pending⟩ := pending
      have queued : row.status = .queued := by
        cases status : row.status with
        | queued => rfl
        | running =>
            obtain ⟨work, inLive, _⟩ := attended.running row member status
            rw [live] at inLive
            cases inLive
        | succeeded =>
            rw [status] at pending
            cases pending
        | deadLettered =>
            rw [status] at pending
            cases pending
      obtain ⟨after, work, success⟩ := claim_commits sound.consistent attended.queued member queued
        (le_refl row.nextAttemptAt)
      obtain ⟨claimedRow, claimed⟩ := claim_claimed success
      refine ⟨.claim row.nextAttemptAt, trivial, ?_⟩
      rw [step_claim_of_ok maxAttempts success]
      exact claimed.work_lt sound.consistent
  | cons work rest =>
      have member : work ∈ world.live := live ▸ List.mem_cons_self
      have attends : Attends maxAttempts world (.succeed work.id nothingFound 0 true) :=
        fun _ => ⟨rfl, nothingFound_recordable⟩
      refine ⟨.succeed work.id nothingFound 0 true, attends, ?_⟩
      obtain ⟨after, success, _⟩ := success_attended sound attends work member rfl
      obtain ⟨item, inTable, running, id, _⟩ := sound.live work member
      have recorded := success_recorded success
      rw [← id] at recorded
      rcases record_cases sound work.id (fun work =>
        if true then recordReprocessingSuccess world.tables work nothingFound 0 else none) with
        ⟨absent, _⟩ | ⟨own, inLive, sameId, single, same⟩
      · exact absurd ⟨work, member, rfl⟩ absent
      · rw [← single work member rfl, success] at same
        change (world.record work.id _).tables.work < _
        rw [same]
        exact recorded.work_lt inTable running

theorem step_runIdentities (world : World) (sound : world.Sound) (event : Event) :
    world.tables.runIdentities ⊆ (world.step maxAttempts event).tables.runIdentities := by
  have recordKeeps : ∀ itemId {call}, RecordCall world.tables call →
      world.tables.runIdentities ⊆ (world.record itemId call).tables.runIdentities := by
    intro itemId call calls
    rcases record_cases sound itemId call with ⟨_, same⟩ | ⟨work, member, _, _, same⟩
    · rw [same]
      exact List.Subset.refl _
    · rw [same]
      cases success : call work with
      | none => exact List.Subset.refl _
      | some after =>
          obtain ⟨row, inTable, _, id, runId, snapshotId, _⟩ := sound.live work member
          obtain ⟨_, _, recorded, _⟩ := calls work row inTable id runId snapshotId after success
          exact recorded.untouched.runs ▸ List.Subset.refl _
  cases event with
  | publish technologyId rule => exact List.Subset.refl _
  | capture snapshot artifact =>
      exact (capture_grows snapshot artifact).runs.subset
  | start call => exact (step_kept sound.consistent.placed.formed (.start call)).1.runs.subset
  | claim now =>
      dsimp only [World.step]
      split
      next after work success => exact (claim_untouched success).runs ▸ List.Subset.refl _
      next => exact List.Subset.refl _
  | crash itemId => exact List.Subset.refl _
  | succeed itemId evaluation completedAt committed =>
      exact recordKeeps itemId (success_call _ evaluation completedAt committed)
  | fail itemId summary retryAt completedAt committed =>
      exact recordKeeps itemId
        (failure_call sound.consistent.placed.ids summary retryAt completedAt committed)

theorem run_runIdentities (maxAttempts : Nat) (world : World) (sound : world.Sound) (events : List Event) :
    world.tables.runIdentities ⊆
      (run (World.step maxAttempts) world events).tables.runIdentities := by
  induction events generalizing world with
  | nil => exact List.Subset.refl _
  | cons event rest ih =>
      exact List.Subset.trans (step_runIdentities world sound event)
        (ih _ (step_sound maxAttempts sound event))

theorem exists_done (maxAttempts : Nat) (world : World) (sound : world.Sound)
    (attended : world.Attended) : ∃ later, (run (World.step maxAttempts) world later).Sound ∧
      ∀ row ∈ (run (World.step maxAttempts) world later).tables.items,
        row.status.isPending = false := by
  have progress : ∀ world : World, world.Sound ∧ world.Attended →
      ¬(∀ row ∈ world.tables.items, row.status.isPending = false) →
      ∃ events, Guarded (World.step maxAttempts) (Attends maxAttempts) world events ∧
        ((run (World.step maxAttempts) world events).Sound ∧
          (run (World.step maxAttempts) world events).Attended) ∧
        (run (World.step maxAttempts) world events).tables.work < world.tables.work := by
    intro world both unfinished
    obtain ⟨event, attends, smaller⟩ := exists_progress maxAttempts world both.1 both.2 unfinished
    exact ⟨[event], ⟨attends, trivial⟩, ⟨step_sound maxAttempts both.1 event,
      step_attended both.1 both.2 attends⟩, smaller⟩
  obtain ⟨later, _, both, done⟩ := @exists_run_of_measure _ _ (World.step maxAttempts)
    (Attends maxAttempts) (fun world => world.Sound ∧ world.Attended)
    (fun world => ∀ row ∈ world.tables.items, row.status.isPending = false)
    (fun world => world.tables.work) progress world ⟨sound, attended⟩
  exact ⟨later, both.1, done⟩

/-- While every claimed item is attended to, nothing is stranded. -/
theorem neverStranded_of_attended (sound : world.Sound) (attended : world.Attended) :
    NeverStranded maxAttempts world where
  claimable row member pending absent := by
    cases status : row.status with
    | queued => exact exists_claim maxAttempts world sound attended member status
    | running => exact absurd (attended.running row member status) absent
    | succeeded =>
        rw [status] at pending
        cases pending
    | deadLettered =>
        rw [status] at pending
        cases pending
  finishes own member := by
    obtain ⟨later, soundLater, done⟩ := exists_done maxAttempts world sound attended
    have kept := run_runIdentities maxAttempts world sound later (List.mem_map_of_mem member)
    obtain ⟨ended, stored, same⟩ := List.mem_map.mp kept
    refine ⟨later, ended, stored, congrArg Prod.fst same, ?_⟩
    exact soundLater.consistent.settled ended stored fun row inTable _ => done row inTable

end Progress

section Stranding

variable {maxAttempts : Nat} {world : World} {itemId : Uuid}

/-- The item is pending, no worker has it, and no claim will take it. -/
structure Stranded (world : World) (itemId : Uuid) : Prop where
  absent : ¬world.isLive itemId
  stuck : ∃ row ∈ world.tables.items, row.id = itemId ∧
    (row.status = .running ∨ row.status = .queued ∧ 2 ^ 15 ≤ row.attemptCount + 1)

theorem Stranded.not_claimed {tables after : Tables} {now : Time} {row : WorkItemRow}
    {work : WorkItem} (claimed : Claimed tables after now row work) (consistent : tables.Consistent)
    {live : List WorkItem} (stranded : Stranded { tables := tables, live := live } itemId) :
    row.id ≠ itemId := by
  obtain ⟨own, stored, id, stuck⟩ := stranded.stuck
  intro same
  have equal : own = row := eq_of_key_eq consistent.placed.ids stored claimed.member
    (id.trans same.symm)
  subst equal
  rcases stuck with running | ⟨_, many⟩
  · rw [claimed.queued] at running
    cases running
  · exact absurd claimed.attempts (Nat.not_lt.mpr many)

theorem Stranded.record (sound : world.Sound) (stranded : Stranded world itemId) (other : Uuid)
    {call : WorkItem → Option Tables} (calls : RecordCall world.tables call) :
    Stranded (world.record other call) itemId := by
  rcases record_cases sound other call with ⟨_, same⟩ | ⟨work, member, own, _, same⟩
  · rw [same]
    exact stranded
  · rw [same]
    refine ⟨?_, ?_⟩
    · rintro ⟨live, inLive, id⟩
      exact stranded.absent ⟨live, List.mem_of_mem_filter inLive, id⟩
    · obtain ⟨row, stored, id, stuck⟩ := stranded.stuck
      refine ⟨row, ?_, id, stuck⟩
      cases success : call work with
      | none => exact stored
      | some after =>
          obtain ⟨item, inTable, _, itemIs, runId, snapshotId, _⟩ := sound.live work member
          obtain ⟨_, _, recorded, _⟩ := calls work item inTable itemIs runId snapshotId after success
          change row ∈ after.items
          rw [recorded.items]
          apply mem_updateWhere_of_not stored
          have apart : row.id ≠ item.id := by
            intro equal
            exact stranded.absent ⟨work, member, itemIs.symm.trans (equal.symm.trans id)⟩
          rw [beq_eq_false_iff_ne.mpr apart, Bool.false_and]

theorem Stranded.grown {after : Tables} (stranded : Stranded world itemId)
    (kept : ∀ row ∈ world.tables.items, row ∈ after.items) :
    Stranded { world with tables := after } itemId where
  absent := stranded.absent
  stuck := by
    obtain ⟨row, stored, fields⟩ := stranded.stuck
    exact ⟨row, kept row stored, fields⟩

theorem step_stranded (sound : world.Sound) (stranded : Stranded world itemId) (event : Event) :
    Stranded (world.step maxAttempts event) itemId := by
  cases event with
  | publish technologyId rule => exact stranded.grown fun _ member => member
  | capture snapshot artifact =>
      apply stranded.grown
      intro row member
      rw [capture_items]
      exact member
  | start call =>
      apply stranded.grown
      intro row member
      rcases start_cases sound.consistent call with same | ⟨version, same, _⟩
      · rw [same]
        exact member
      · rw [same]
        exact List.mem_append_left _ member
  | claim now =>
      dsimp only [World.step]
      split
      next after work success =>
        obtain ⟨row, claimed⟩ := claim_claimed success
        have apart := Stranded.not_claimed claimed sound.consistent stranded
        constructor
        · rintro ⟨live, inLive, id⟩
          rcases List.mem_append.mp inLive with old | new
          · exact stranded.absent ⟨live, old, id⟩
          · rw [List.mem_singleton.mp new] at id
            exact apart (claimed.id.symm.trans id)
        · obtain ⟨own, stored, id, stuck⟩ := stranded.stuck
          refine ⟨own, ?_, id, stuck⟩
          rw [claimed.same]
          apply mem_updateWhere_of_not stored
          rw [beq_eq_false_iff_ne]
          exact fun same => apart (same.symm.trans id)
      next => exact stranded
  | crash other =>
      refine ⟨?_, stranded.stuck⟩
      rintro ⟨live, inLive, id⟩
      exact stranded.absent ⟨live, List.mem_of_mem_filter inLive, id⟩
  | succeed other evaluation completedAt committed =>
      exact stranded.record sound other (success_call _ evaluation completedAt committed)
  | fail other summary retryAt completedAt committed =>
      exact stranded.record sound other
        (failure_call sound.consistent.placed.ids summary retryAt completedAt committed)

/-- A stranded item stays so, whatever happens. -/
theorem Stranded.not_neverStranded (sound : world.Sound) (stranded : Stranded world itemId) :
    ¬NeverStranded maxAttempts world := by
  intro never
  obtain ⟨row, stored, id, stuck⟩ := stranded.stuck
  have pending : row.status.isPending = true := by
    rcases stuck with running | ⟨queued, _⟩
    · rw [running]
      rfl
    · rw [queued]
      rfl
  obtain ⟨later, now, after, work, success, own⟩ :=
    never.claimable row stored pending (id ▸ stranded.absent)
  have both : (run (World.step maxAttempts) world later).Sound ∧
      Stranded (run (World.step maxAttempts) world later) itemId :=
    run_invariant (P := fun world => world.Sound ∧ Stranded world itemId)
      (fun _ event both => ⟨step_sound maxAttempts both.1 event, step_stranded both.1 both.2 event⟩)
      world later ⟨sound, stranded⟩
  obtain ⟨claimedRow, claimed⟩ := claim_claimed success
  exact Stranded.not_claimed claimed both.1.consistent both.2
    (claimed.id.symm.trans (own.trans id))

/-- An event that does not attend to its item strands it. -/
theorem stranded_of_not_attends (sound : world.Sound) {event : Event}
    (neglects : ¬Attends maxAttempts world event) :
    ∃ itemId, Stranded (world.step maxAttempts event) itemId := by
  -- a record call that does not commit loses its worker and changes nothing
  have lost : ∀ {other call work}, work ∈ world.live → work.id = other → call work = none →
      Stranded (world.record other call) other := by
    intro other call work member own failed
    rcases record_cases sound other call with ⟨absent, _⟩ | ⟨found, _, _, single, same⟩
    · exact absurd ⟨work, member, own⟩ absent
    · rw [same, ← single work member own, failed]
      obtain ⟨row, stored, running, id, _⟩ := sound.live work member
      exact ⟨not_isLive_filter other _ _, row, stored, id.trans own, .inl running⟩
  cases event with
  | publish technologyId rule => exact absurd trivial neglects
  | capture snapshot artifact => exact absurd trivial neglects
  | start call => exact absurd trivial neglects
  | claim now => exact absurd trivial neglects
  | crash other =>
      obtain ⟨work, member, own⟩ := not_not.mp neglects
      obtain ⟨row, stored, running, id, _⟩ := sound.live work member
      exact ⟨other, not_isLive_filter other _ _, row, stored, id.trans own, .inl running⟩
  | succeed other evaluation completedAt committed =>
      obtain ⟨⟨work, member, own⟩, refused⟩ := Classical.not_imp.mp neglects
      refine ⟨other, lost member own ?_⟩
      cases committed with
      | false => rfl
      | true =>
          obtain ⟨row, stored, running, id, runId, snapshotId, _⟩ := sound.live work member
          have pending : row.status.isPending = true := by
            rw [running]
            rfl
          rw [Option.eq_none_iff_forall_ne_some]
          intro after success
          exact refused ⟨rfl, (success_commits_iff sound.consistent stored pending runId snapshotId
            evaluation completedAt).mp ⟨after, success⟩⟩
  | fail other summary retryAt completedAt committed =>
      simp only [Attends, not_forall] at neglects
      obtain ⟨work, member, own, refused⟩ := neglects
      cases committed with
      | false => exact ⟨other, lost member own rfl⟩
      | true =>
          have few : ¬maxAttempts ≤ work.attemptCount ∧ 2 ^ 15 ≤ work.attemptCount + 1 := by
            constructor
            · exact fun terminal => refused ⟨rfl, .inl terminal⟩
            · exact Nat.not_lt.mp fun few => refused ⟨rfl, .inr few⟩
          obtain ⟨row, stored, running, id, _, _, attempts⟩ := sound.live work member
          obtain ⟨after, success⟩ := failure_commits sound.consistent stored summary retryAt
            (decide (maxAttempts ≤ work.attemptCount)) completedAt
          have recorded := failure_recorded sound.consistent.placed.ids stored success
          rw [id] at success
          refine ⟨other, ?_⟩
          change Stranded (world.record other _) other
          rcases record_cases sound other (fun work =>
            if true then recordReprocessingFailure world.tables work.id summary retryAt
              (decide (maxAttempts ≤ work.attemptCount)) completedAt
            else none) with ⟨absent, _⟩ | ⟨found, _, _, single, same⟩
          · exact absurd ⟨work, member, own⟩ absent
          · rw [same, ← single work member own, if_pos rfl, success, Option.getD_some]
            have selected : (row.id == row.id && row.status == .running) = true := by
              rw [running, beq_self_eq_true]
              rfl
            rw [decide_eq_false few.1] at recorded
            have moved : WorkItemRow.requeuedAt (boundedSummary summary) retryAt completedAt row ∈
                after.items := by
              rw [recorded.items]
              exact mem_updateWhere_of_selected stored selected
            refine ⟨not_isLive_filter other _ _, _, moved, id.trans own, .inr ⟨rfl, ?_⟩⟩
            · change 2 ^ 15 ≤ row.attemptCount + 1
              rw [attempts]
              exact few.2

/-- Nothing is ever stranded exactly in the histories in which every claimed item is
attended to. -/
theorem reprocessing_neverStranded_iff (kinds : List String) (maxAttempts : Nat)
    (events : List Event) :
    (∀ before, before <+: events → NeverStranded maxAttempts (World.after kinds maxAttempts before)) ↔
      Guarded (World.step maxAttempts) (Attends maxAttempts) (World.empty kinds) events := by
  constructor
  · intro never
    induction events using List.reverseRecOn with
    | nil => trivial
    | append_singleton events event ih =>
        rw [guarded_append]
        refine ⟨ih fun before early => never before (early.trans (List.prefix_append _ _)), ?_,
          trivial⟩
        by_contra neglects
        have sound := after_sound kinds maxAttempts events
        obtain ⟨itemId, stranded⟩ := stranded_of_not_attends sound neglects
        have whole := never (events ++ [event]) (List.prefix_refl _)
        rw [World.after, run_append] at whole
        exact stranded.not_neverStranded (step_sound maxAttempts sound event) whole
  · rintro guarded before ⟨later, rfl⟩
    have early := (guarded_append.mp guarded).1
    have both : (World.after kinds maxAttempts before).Sound ∧ (World.after kinds maxAttempts before).Attended :=
      run_invariant_of_guarded (P := fun world => world.Sound ∧ world.Attended)
        (fun _ event attends both => ⟨step_sound maxAttempts both.1 event,
          step_attended both.1 both.2 attends⟩) (World.empty kinds) before early
        ⟨empty_sound kinds, empty_attended kinds⟩
    exact neverStranded_of_attended both.1 both.2

/-- One snapshot, whose item is claimed by a worker that is lost. -/
def lostReplay : List Event :=
  [ .publish 0 {
      technologySlug := "shopify".toList
      technologyCategorySlug := "ecommerce".toList
      ruleSlug := "shopify".toList
      version := 1
      definition := .null },
    .capture {
      id := 0
      crawlAttemptId := 0
      domainId := 0
      requestedUrl := "https://example.com/".toList
      finalUrl := "https://example.com/".toList
      redirectChain := []
      responseStatus := 200
      responseHeaders := []
      responseBodyBytes := 0
      capturedAt := 0 } none,
    .start {
      ruleSlug := "shopify".toList
      ruleVersion := 1
      idempotencyKey := "replay".toList
      actorSubject := "operator".toList
      now := 1 },
    .claim 2,
    .crash 3 ]

example : ¬NeverStranded 3 (World.after replayKinds 3 lostReplay) := by
  have stuck : ∃ row ∈ (World.after replayKinds 3 lostReplay).tables.items, row.id = 3 ∧
      (row.status = .running ∨ row.status = .queued ∧ 2 ^ 15 ≤ row.attemptCount + 1) := by
    decide +kernel
  have lost : (World.after replayKinds 3 lostReplay).live.length = 0 := by
    decide +kernel
  have absent : ¬(World.after replayKinds 3 lostReplay).isLive 3 := by
    rintro ⟨work, member, _⟩
    rw [List.length_eq_zero_iff.mp lost] at member
    cases member
  exact Stranded.not_neverStranded (after_sound replayKinds 3 lostReplay) ⟨absent, stuck⟩

end Stranding

end TechAtlas.Reprocessing
