import TechAtlas.Reprocessing.Claims

set_option autoImplicit false

/- The record calls of several workers as concurrent transactions: a statement at a
time, each of which sees what was committed before it and what its own transaction wrote. -/
namespace TechAtlas.Reprocessing

open Library TechAtlas.Detector TechAtlas.Store TechAtlas.Storage

section Writes

/-- The update of the item that a record call makes. -/
inductive ItemChange
  | succeeded (completedAt : Time)
  | deadLettered (summary : Text) (completedAt : Time)
  | requeued (summary : Text) (retryAt completedAt : Time)

def ItemChange.apply : ItemChange → WorkItemRow → WorkItemRow
  | .succeeded completedAt => WorkItemRow.succeededAtTime completedAt
  | .deadLettered summary completedAt => WorkItemRow.deadLetteredAt summary completedAt
  | .requeued summary retryAt completedAt => WorkItemRow.requeuedAt summary retryAt completedAt

/-- A row that a transaction wrote. Nobody else sees it before the commit. -/
inductive RowWrite
  | observation (row : ReprocessedObservationRow)
  | detection (row : ReprocessedDetectionRow)
  | evidence (row : ReprocessedEvidenceRow)
  | item (itemId : Uuid) (change : ItemChange)

def RowWrite.apply (tables : Tables) : RowWrite → Tables
  | .observation row => { tables with observations := tables.observations ++ [row] }
  | .detection row => { tables with detections := tables.detections ++ [row] }
  | .evidence row => { tables with evidence := tables.evidence ++ [row] }
  | .item itemId change =>
      { tables with items := updateWhere (fun row => row.id == itemId) change.apply tables.items }

/-- The run's row as `refresh_run` writes it. -/
def Tables.refreshedRun (tables : Tables) (runId : Uuid) (counts : RunCounts) (now : Time) :
    Tables :=
  { tables with
    runs := updateWhere (fun run => run.id == runId) (RunRow.refreshed counts now) tables.runs }

end Writes

section Sessions

/-- The statements of a record call before `refresh_run`. -/
inductive RowStatement
  | lockItem
  | insertObservation (status : RuleObservationStatus)
  | insertDetection (detection : Detection) (technologyVersion : Option Text)
  | insertEvidence (evidence : DetectionEvidence)
  | updateItem (change : ItemChange)

/-- What a worker reports of its item. -/
inductive Report
  | succeeded (evaluation : ReprocessingEvaluation)
  | failed (summary : Text) (retryAt : Time) (terminal : Bool)

def detectionStatements (evaluation : ReprocessingEvaluation) : List RowStatement :=
  match evaluation.detection with
  | none => []
  | some detection =>
      .insertDetection detection evaluation.technologyVersion ::
        detection.evidence.map .insertEvidence

def Report.statements (completedAt : Time) : Report → List RowStatement
  | .succeeded evaluation =>
      .insertObservation evaluation.observation.status :: detectionStatements evaluation ++
        [.updateItem (.succeeded completedAt)]
  | .failed summary retryAt terminal =>
      [.lockItem, .updateItem
        (if terminal then .deadLettered (boundedSummary summary) completedAt
          else .requeued (boundedSummary summary) retryAt completedAt)]

/-- Where a transaction is; after the writing come the statements of `refresh_run`. -/
inductive Phase
  | writing (rest : List RowStatement)
  | refreshing (counts : RunCounts)
  | deriving (counts : RunCounts)
  | committing (counts : RunCounts) (changes : List VersionChangeRow)

/-- The items are counted next. -/
def Phase.isCounting : Phase → Bool
  | .writing [] => true
  | _ => false

/-- What the transaction has counted. -/
def Phase.counts : Phase → Option RunCounts
  | .writing _ => none
  | .refreshing counts | .deriving counts | .committing counts _ => some counts

/-- The lock of the run's row is held from its update to the commit. -/
def Phase.holdsRun : Phase → Bool
  | .writing _ | .refreshing _ => false
  | .deriving _ | .committing _ _ => true

def Phase.apply (runId : Uuid) (now : Time) (tables : Tables) : Phase → Tables
  | .writing _ | .refreshing _ => tables
  | .deriving counts => tables.refreshedRun runId counts now
  | .committing counts changes =>
      { tables.refreshedRun runId counts now with
        versionChanges := changes.foldl addChange tables.versionChanges }

/-- An open transaction of a record call, with its local variables. -/
structure Session where
  work : WorkItem
  runId : Uuid
  completedAt : Time
  detectionId : Uuid
  rows : List RowWrite
  phase : Phase

def Session.begin (work : WorkItem) (report : Report) (completedAt : Time) : Session where
  work := work
  runId := work.runId
  completedAt := completedAt
  detectionId := 0
  rows := []
  phase := .writing (report.statements completedAt)

/-- The committed tables with the rows that the transaction wrote. -/
def Session.written (tables : Tables) (session : Session) : Tables :=
  session.rows.foldl RowWrite.apply tables

/-- What a statement of the transaction sees. -/
def Session.view (tables : Tables) (session : Session) : Tables :=
  session.phase.apply session.runId session.completedAt (session.written tables)

def Session.write (row : RowWrite) (rest : List RowStatement) (session : Session) : Session :=
  { session with
    rows := session.rows ++ [row]
    phase := .writing rest }

def observationRow (work : WorkItem) (status : RuleObservationStatus) :
    ReprocessedObservationRow where
  runId := work.runId
  crawlSnapshotId := work.snapshotId
  detectionRuleVersionId := work.detectionRuleVersionId
  status := status
  observedAt := work.capturedAt

def detectionRow (id : Uuid) (work : WorkItem) (detection : Detection)
    (technologyVersion : Option Text) : ReprocessedDetectionRow where
  id := id
  runId := work.runId
  crawlSnapshotId := work.snapshotId
  technologyId := work.technologyId
  detectionRuleVersionId := work.detectionRuleVersionId
  confidence := detection.confidence.1
  technologyVersion := technologyVersion
  observedAt := work.capturedAt

/-- A statement before `refresh_run`. An identifier is drawn for good, also when the
transaction is rolled back. -/
def Session.executeRow (tables : Tables) (session : Session) (rest : List RowStatement) :
    RowStatement → Option (Tables × Session)
  | .lockItem =>
      ((session.view tables).items.find? fun row => row.id == session.work.id).map fun row =>
        (tables, { session with
          runId := row.runId
          phase := .writing rest })
  | .insertObservation status =>
      ((session.view tables).insertObservation session.work status).map fun _ =>
        (tables, session.write (.observation (observationRow session.work status)) rest)
  | .insertDetection detection technologyVersion =>
      let row := detectionRow tables.nextId session.work detection technologyVersion
      if admitsReprocessed (session.view tables).detections row then
        some ({ tables with nextId := tables.nextId + 1 },
          { session.write (.detection row) rest with detectionId := tables.nextId })
      else none
  | .insertEvidence evidence =>
      let row : ReprocessedEvidenceRow :=
        { reprocessedDetectionId := session.detectionId
          evidence := evidence }
      if admitsEvidence (session.view tables).evidence row then
        some (tables, session.write (.evidence row) rest)
      else none
  | .updateItem change =>
      some (tables,
        if (session.view tables).items.any fun row =>
            row.id == session.work.id && row.status == .running then
          session.write (.item session.work.id change) rest
        else { session with phase := .writing rest })

/-- The next statement of a transaction, which is over after the commit. A statement
that fails gives nothing. -/
def Session.execute (tables : Tables) (session : Session) : Option (Tables × Option Session) :=
  match session.phase with
  | .writing (statement :: rest) =>
      (session.executeRow tables rest statement).map fun (after, next) => (after, some next)
  | .writing [] =>
      some (tables, some { session with
        phase := .refreshing ((session.view tables).countItems session.runId) })
  | .refreshing counts =>
      ((session.view tables).updateRun session.runId counts session.completedAt).map fun _ =>
        (tables, some { session with
          phase := if counts.pending = 0 then .deriving counts else .committing counts [] })
  | .deriving counts =>
      some (tables, some { session with
        phase := .committing counts ((session.view tables).derivedChanges session.runId) })
  | .committing _ _ => some (session.view tables, none)

end Sessions

section Databases

/-- The committed tables, the claimed items that are not recorded yet, and the open
transactions. -/
structure Database where
  tables : Tables
  live : List WorkItem
  sessions : List Session

def Database.empty (kinds : List String) : Database where
  tables := Tables.empty kinds
  live := []
  sessions := []

inductive Action
  | publish (technologyId : Uuid) (rule : ActiveDetectionRule)
  | capture (snapshot : SnapshotRow) (artifact : Option RawArtifactMetadata)
  | start (call : StartCall)
  | claim (now : Time)
  | lose (itemId : Uuid)
  | begin (itemId : Uuid) (report : Report) (completedAt : Time)
  | execute (itemId : Uuid)

/-- The update of a run's row waits for the transaction that holds its lock. -/
def Database.blocks (db : Database) (session : Session) : Bool :=
  match session.phase with
  | .refreshing _ => db.sessions.any fun other =>
      other.work.id != session.work.id && other.runId == session.runId && other.phase.holdsRun
  | _ => false

def Database.close (db : Database) (itemId : Uuid) (tables : Tables) : Database :=
  { db with
    tables := tables
    sessions := db.sessions.filter fun session => session.work.id != itemId }

def Database.advance (db : Database) (session : Session) : Database :=
  match session.execute db.tables with
  | none => db.close session.work.id db.tables
  | some (after, none) => db.close session.work.id after
  | some (after, some next) =>
      { db with
        tables := after
        sessions := updateWhere (fun other => other.work.id == session.work.id) (fun _ => next)
          db.sessions }

/-- An interleaving is a list of actions. A worker that is lost rolls its transaction back. -/
def Database.step (db : Database) : Action → Database
  | .publish technologyId rule => { db with tables := db.tables.publish technologyId rule }
  | .capture snapshot artifact => { db with tables := db.tables.capture snapshot artifact }
  | .start call => { db with tables := db.tables.step (.start call) }
  | .claim now =>
      match claimNextReprocessingItem db.tables now with
      | .ok (after, some work) =>
          { db with
            tables := after
            live := db.live ++ [work] }
      | _ => db
  | .lose itemId =>
      { db.close itemId db.tables with live := db.live.filter fun work => work.id != itemId }
  | .begin itemId report completedAt =>
      match db.live.find? fun work => work.id == itemId with
      | none => db
      | some work =>
          { db with
            live := db.live.filter fun other => other.id != itemId
            sessions := db.sessions ++ [Session.begin work report completedAt] }
  | .execute itemId =>
      match db.sessions.find? fun session => session.work.id == itemId with
      | none => db
      | some session => if db.blocks session then db else db.advance session

def Database.after (kinds : List String) (actions : List Action) : Database :=
  run Database.step (Database.empty kinds) actions

end Databases

section Views

variable {tables : Tables}

def observationsIn (rows : List RowWrite) : List ReprocessedObservationRow :=
  rows.filterMap fun
    | .observation row => some row
    | _ => none

def detectionsIn (rows : List RowWrite) : List ReprocessedDetectionRow :=
  rows.filterMap fun
    | .detection row => some row
    | _ => none

def evidenceIn (rows : List RowWrite) : List ReprocessedEvidenceRow :=
  rows.filterMap fun
    | .evidence row => some row
    | _ => none

/-- What the writes make of the item. -/
def changeIn : List RowWrite → WorkItemRow → WorkItemRow
  | [], item => item
  | .item _ change :: rest, item => changeIn rest (change.apply item)
  | _ :: rest, item => changeIn rest item

theorem ItemChange.apply_keeps (change : ItemChange) (item : WorkItemRow) :
    (change.apply item).id = item.id ∧ (change.apply item).runId = item.runId ∧
      (change.apply item).crawlSnapshotId = item.crawlSnapshotId := by
  cases change <;> exact ⟨rfl, rfl, rfl⟩

theorem changeIn_keeps (rows : List RowWrite) (item : WorkItemRow) :
    (changeIn rows item).id = item.id ∧ (changeIn rows item).runId = item.runId ∧
      (changeIn rows item).crawlSnapshotId = item.crawlSnapshotId := by
  induction rows generalizing item with
  | nil => exact ⟨rfl, rfl, rfl⟩
  | cons write rest ih =>
      cases write with
      | item itemId change =>
          obtain ⟨id, runId, snapshotId⟩ := change.apply_keeps item
          obtain ⟨restId, restRun, restSnapshot⟩ := ih (change.apply item)
          exact ⟨restId.trans id, restRun.trans runId, restSnapshot.trans snapshotId⟩
      | observation _ => exact ih item
      | detection _ => exact ih item
      | evidence _ => exact ih item

/-- A write is about the item of the transaction. -/
def RowWrite.IsOf (work : WorkItem) : RowWrite → Prop
  | .observation row => (row.runId = work.runId ∧ row.crawlSnapshotId = work.snapshotId) ∧
      row.detectionRuleVersionId = work.detectionRuleVersionId
  | .detection row => (row.runId = work.runId ∧ row.crawlSnapshotId = work.snapshotId) ∧
      row.detectionRuleVersionId = work.detectionRuleVersionId ∧ row.technologyId = work.technologyId
  | .evidence _ => True
  | .item itemId _ => itemId = work.id

/-- The tables that a transaction sees, table by table. -/
theorem written_eq (session : Session) (own : ∀ write ∈ session.rows, write.IsOf session.work)
    (tables : Tables) : session.written tables = { tables with
      observations := tables.observations ++ observationsIn session.rows
      detections := tables.detections ++ detectionsIn session.rows
      evidence := tables.evidence ++ evidenceIn session.rows
      items := updateWhere (fun row => row.id == session.work.id) (changeIn session.rows)
        tables.items } := by
  unfold Session.written
  generalize session.rows = rows at own
  induction rows generalizing tables with
  | nil =>
      have kept : updateWhere (fun row : WorkItemRow => row.id == session.work.id) (changeIn [])
          tables.items = tables.items := by
        apply List.map_id''
        intro row
        exact ite_self row
      rw [kept]
      simp [observationsIn, detectionsIn, evidenceIn]
  | cons write rest ih =>
      have later := ih (write.apply tables) fun other member =>
        own other (List.mem_cons_of_mem write member)
      rw [List.foldl_cons, later]
      cases write with
      | observation row => simp [RowWrite.apply, observationsIn, detectionsIn, evidenceIn, changeIn]
      | detection row => simp [RowWrite.apply, observationsIn, detectionsIn, evidenceIn, changeIn]
      | evidence row => simp [RowWrite.apply, observationsIn, detectionsIn, evidenceIn, changeIn]
      | item itemId change =>
          have same : itemId = session.work.id := own _ List.mem_cons_self
          subst same
          have composed : updateWhere (fun row => row.id == session.work.id) (changeIn rest)
              (updateWhere (fun row => row.id == session.work.id) change.apply tables.items) =
              updateWhere (fun row => row.id == session.work.id)
                (fun row => changeIn rest (change.apply row)) tables.items := by
            apply updateWhere_updateWhere
            intro row
            rw [(change.apply_keeps row).1]
          simp only [RowWrite.apply, observationsIn, detectionsIn, evidenceIn]
          rw [composed]
          rfl

end Views

section Frames

variable {tables after : Tables} {runId : Uuid}

/-- Two states that agree on all that counting the items of a run and deriving its changes
read. -/
structure SameRun (runId : Uuid) (tables after : Tables) : Prop where
  items : (after.items.filter fun row => row.runId == runId) =
    tables.items.filter fun row => row.runId == runId
  observations : (after.observations.filter fun row => row.runId == runId) =
    tables.observations.filter fun row => row.runId == runId
  detections : (after.detections.filter fun row => row.runId == runId) =
    tables.detections.filter fun row => row.runId == runId
  changes : (after.versionChanges.filter fun row => row.reprocessingRunId == runId) =
    tables.versionChanges.filter fun row => row.reprocessingRunId == runId
  snapshots : ∀ id row, (tables.snapshots.find? fun row => row.id == id) = some row →
    (after.snapshots.find? fun row => row.id == id) = some row
  versions : ∀ id row, (tables.versions.find? fun row => row.id == id) = some row →
    (after.versions.find? fun row => row.id == id) = some row

theorem SameRun.countItems (same : SameRun runId tables after) :
    after.countItems runId = tables.countItems runId := by
  unfold Tables.countItems
  rw [same.items]

theorem rank_eq_some {observation : ReprocessedObservationRow} {ranked : RankedObservation} :
    tables.rank observation = some ranked ↔
      ∃ snapshot version,
        (tables.snapshots.find? fun row => row.id == observation.crawlSnapshotId) = some snapshot ∧
        (tables.versions.find? fun row => row.id == observation.detectionRuleVersionId) =
          some version ∧
        ranked = {
          detectionId := (tables.detections.find? fun row => row.runId == observation.runId &&
            row.crawlSnapshotId == observation.crawlSnapshotId &&
            row.detectionRuleVersionId == observation.detectionRuleVersionId).map
              ReprocessedDetectionRow.id
          crawlSnapshotId := observation.crawlSnapshotId
          domainId := snapshot.domainId
          technologyId := version.technologyId
          technologyVersion := (tables.detections.find? fun row =>
            row.runId == observation.runId &&
            row.crawlSnapshotId == observation.crawlSnapshotId &&
            row.detectionRuleVersionId == observation.detectionRuleVersionId).bind
              ReprocessedDetectionRow.technologyVersion
          observedAt := observation.observedAt } := by
  constructor
  · intro success
    obtain ⟨snapshot, inSnapshots, success⟩ := Option.bind_eq_some_iff.mp success
    obtain ⟨version, inVersions, success⟩ := Option.bind_eq_some_iff.mp success
    exact ⟨snapshot, version, inSnapshots, inVersions, (Option.some.inj success).symm⟩
  · rintro ⟨snapshot, version, inSnapshots, inVersions, rfl⟩
    exact Option.bind_eq_some_iff.mpr ⟨snapshot, inSnapshots,
      Option.bind_eq_some_iff.mpr ⟨version, inVersions, rfl⟩⟩

/-- A lookup that asks for the run finds the same detection in both states. -/
theorem SameRun.detection (same : SameRun runId tables after) (p : ReprocessedDetectionRow → Bool) :
    (after.detections.find? fun row => row.runId == runId && p row) =
      tables.detections.find? fun row => row.runId == runId && p row := by
  have filtered : ∀ rows : List ReprocessedDetectionRow,
      (rows.find? fun row => row.runId == runId && p row) =
        (rows.filter fun row => row.runId == runId).find? p := by
    intro rows
    rw [List.find?_filter]
    congr 1
    funext row
    cases row.runId == runId <;> cases p row <;> rfl
  rw [filtered, filtered, same.detections]

theorem SameRun.rank (same : SameRun runId tables after) {observation : ReprocessedObservationRow}
    (own : observation.runId = runId) {ranked : RankedObservation}
    (found : tables.rank observation = some ranked) : after.rank observation = some ranked := by
  obtain ⟨snapshot, version, inSnapshots, inVersions, rfl⟩ := rank_eq_some.mp found
  subst own
  refine rank_eq_some.mpr ⟨snapshot, version, same.snapshots _ _ inSnapshots,
    same.versions _ _ inVersions, ?_⟩
  simp only [Bool.and_assoc, same.detection]

theorem SameRun.derivedChanges (same : SameRun runId tables after)
    (ranked : ∀ observation ∈ tables.observations, ∃ row, tables.rank observation = some row) :
    after.derivedChanges runId = tables.derivedChanges runId := by
  have rows : (tables.observations.filter fun row => row.runId == runId).filterMap after.rank =
      (tables.observations.filter fun row => row.runId == runId).filterMap tables.rank := by
    apply List.filterMap_congr
    intro observation member
    obtain ⟨inTable, own⟩ := List.mem_filter.mp member
    obtain ⟨row, found⟩ := ranked observation inTable
    rw [found]
    exact same.rank (beq_iff_eq.mp own) found
  unfold Tables.derivedChanges Tables.ranked
  rw [same.observations, rows]

/-- What a transaction wrote does not come between two states that agree on a run. -/
theorem SameRun.written (same : SameRun runId tables after) {session : Session}
    (own : ∀ write ∈ session.rows, write.IsOf session.work) :
    SameRun runId (session.written tables) (session.written after) := by
  have keeps : ∀ item : WorkItemRow, ((changeIn session.rows item).runId == runId) =
      (item.runId == runId) := by
    intro item
    rw [(changeIn_keeps session.rows item).2.1]
  rw [written_eq session own, written_eq session own]
  constructor
  · dsimp only
    rw [filter_updateWhere keeps, filter_updateWhere keeps, same.items]
  · dsimp only
    rw [List.filter_append, List.filter_append, same.observations]
  · dsimp only
    rw [List.filter_append, List.filter_append, same.detections]
  · exact same.changes
  · exact same.snapshots
  · exact same.versions

theorem filter_foldl_addChange (changes rows : List VersionChangeRow)
    (foreign : ∀ row ∈ changes, row.reprocessingRunId ≠ runId) :
    ((changes.foldl addChange rows).filter fun row => row.reprocessingRunId == runId) =
      rows.filter fun row => row.reprocessingRunId == runId := by
  induction changes generalizing rows with
  | nil => rfl
  | cons change rest ih =>
      rw [List.foldl_cons, ih _ fun row member => foreign row (List.mem_cons_of_mem change member)]
      unfold addChange
      split
      · rfl
      · have apart : (change.reprocessingRunId == runId) = false :=
          beq_eq_false_iff_ne.mpr (foreign change List.mem_cons_self)
        rw [List.filter_append, List.filter_singleton, apart]
        exact List.append_nil _

theorem versionChange_eq_some {prior : Option RankedObservation} {row : RankedObservation}
    {change : VersionChangeRow} :
    versionChange runId (prior, row) = some change ↔
      ∃ earlier fromVersion toVersion priorId currentId, prior = some earlier ∧
        earlier.technologyVersion = some fromVersion ∧ row.technologyVersion = some toVersion ∧
        fromVersion ≠ toVersion ∧ earlier.detectionId = some priorId ∧
        row.detectionId = some currentId ∧
        change = {
          reprocessingRunId := runId
          domainId := row.domainId
          technologyId := row.technologyId
          priorSnapshotId := earlier.crawlSnapshotId
          currentSnapshotId := row.crawlSnapshotId
          priorReprocessedDetectionId := priorId
          currentReprocessedDetectionId := currentId
          fromVersion := fromVersion
          toVersion := toVersion
          observedAt := row.observedAt } := by
  constructor
  · intro selected
    obtain ⟨earlier, known, selected⟩ := Option.bind_eq_some_iff.mp selected
    obtain ⟨fromVersion, before, selected⟩ := Option.bind_eq_some_iff.mp selected
    obtain ⟨toVersion, now, selected⟩ := Option.bind_eq_some_iff.mp selected
    split at selected
    · cases selected
    next differ =>
      obtain ⟨priorId, priorFound, selected⟩ := Option.bind_eq_some_iff.mp selected
      obtain ⟨currentId, currentFound, selected⟩ := Option.bind_eq_some_iff.mp selected
      exact ⟨earlier, fromVersion, toVersion, priorId, currentId, known, before, now, differ,
        priorFound, currentFound, (Option.some.inj selected).symm⟩
  · rintro ⟨earlier, fromVersion, toVersion, priorId, currentId, rfl, before, now, differ,
      priorFound, currentFound, rfl⟩
    unfold versionChange
    simp [before, now, differ, priorFound, currentFound]

theorem derivedChanges_runId {change : VersionChangeRow}
    (member : change ∈ tables.derivedChanges runId) : change.reprocessingRunId = runId := by
  obtain ⟨⟨prior, row⟩, _, selected⟩ := List.mem_filterMap.mp member
  obtain ⟨_, _, _, _, _, _, _, _, _, _, _, rfl⟩ := versionChange_eq_some.mp selected
  rfl

end Frames

end TechAtlas.Reprocessing
