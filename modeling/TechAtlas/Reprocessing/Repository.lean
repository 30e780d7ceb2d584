import TechAtlas.Detector
import TechAtlas.Storage.Artifacts
import TechAtlas.Store.Admin

set_option autoImplicit false

/- Replaying a published rule over the stored snapshots: the tables of the
replay and the statements of `PostgresReprocessingRepository`. -/
namespace TechAtlas.Reprocessing

open Library TechAtlas.Detector TechAtlas.Store TechAtlas.Storage

section Tables

inductive RunStatus
  | queued
  | running
  | completed
  | partialFailed
  deriving DecidableEq, Repr

def RunStatus.isFinished : RunStatus → Bool
  | .completed | .partialFailed => true
  | .queued | .running => false

structure RunRow where
  id : Uuid
  detectionRuleVersionId : Uuid
  requestedBy : Text
  idempotencyKey : Text
  status : RunStatus
  totalSnapshotCount : Nat
  succeededSnapshotCount : Nat
  failedSnapshotCount : Nat
  requestedAt : Time
  startedAt : Option Time
  finishedAt : Option Time
  deriving DecidableEq, Repr

inductive WorkItemStatus
  | queued
  | running
  | succeeded
  | deadLettered
  deriving DecidableEq, Repr

def WorkItemStatus.isPending : WorkItemStatus → Bool
  | .queued | .running => true
  | .succeeded | .deadLettered => false

structure WorkItemRow where
  id : Uuid
  runId : Uuid
  crawlSnapshotId : Uuid
  domainId : Uuid
  status : WorkItemStatus
  attemptCount : Nat
  nextAttemptAt : Time
  claimedAt : Option Time
  failureSummary : Option Text
  completedAt : Option Time
  createdAt : Time
  updatedAt : Time
  deriving DecidableEq, Repr

structure ReprocessedObservationRow where
  runId : Uuid
  crawlSnapshotId : Uuid
  detectionRuleVersionId : Uuid
  status : RuleObservationStatus
  observedAt : Time
  deriving DecidableEq, Repr

structure ReprocessedDetectionRow where
  id : Uuid
  runId : Uuid
  crawlSnapshotId : Uuid
  technologyId : Uuid
  detectionRuleVersionId : Uuid
  confidence : Nat
  technologyVersion : Option Text
  observedAt : Time
  deriving DecidableEq, Repr

structure ReprocessedEvidenceRow where
  reprocessedDetectionId : Uuid
  evidence : DetectionEvidence
  deriving DecidableEq, Repr

structure VersionChangeRow where
  reprocessingRunId : Uuid
  domainId : Uuid
  technologyId : Uuid
  priorSnapshotId : Uuid
  currentSnapshotId : Uuid
  priorReprocessedDetectionId : Uuid
  currentReprocessedDetectionId : Uuid
  fromVersion : Text
  toVersion : Text
  observedAt : Time
  deriving DecidableEq, Repr

/-- A published version with the rule, the technology and the category that its
foreign keys lead to. -/
structure PublishedVersion where
  id : Uuid
  technologyId : Uuid
  rule : ActiveDetectionRule

/-- The resource kinds that the check of `admin_audit_events` admits, as the last
migration that names it leaves them. -/
def resourceKinds : List String :=
  ["domain", "import", "crawl_attempt", "detection_rule", "country_enrichment"]

/-- The same with the kind that a new run is audited under, which the check leaves out. -/
def replayKinds : List String := "detection_reprocessing_run" :: resourceKinds

/-- The tables of the replay and those it reads, with the kinds that the check of
`admin_audit_events` admits. `nextId` stands for the random identifiers, which are
never drawn twice. -/
structure Tables where
  versions : List PublishedVersion
  snapshots : List SnapshotRow
  artifacts : List ArtifactRow
  runs : List RunRow
  items : List WorkItemRow
  observations : List ReprocessedObservationRow
  detections : List ReprocessedDetectionRow
  evidence : List ReprocessedEvidenceRow
  versionChanges : List VersionChangeRow
  auditEvents : List AuditEvent
  auditKinds : List String
  nextId : Uuid

def Tables.empty (kinds : List String) : Tables where
  versions := []
  snapshots := []
  artifacts := []
  runs := []
  items := []
  observations := []
  detections := []
  evidence := []
  versionChanges := []
  auditEvents := []
  auditKinds := kinds
  nextId := 0

end Tables

section Catalogue

variable (tables : Tables)

/-- A rule version enters the catalogue; identifiers are unique. -/
def Tables.publish (technologyId : Uuid) (rule : ActiveDetectionRule) : Tables :=
  { tables with
    versions := tables.versions ++
      [{ id := tables.nextId, technologyId := technologyId, rule := rule }]
    nextId := tables.nextId + 1 }

/-- Metadata is only ever built by `response_body`, whose checks it passes again. -/
def isValidMetadata (artifact : RawArtifactMetadata) : Bool :=
  (responseBody artifact.storageLocation artifact.checksumSha256 artifact.compression
    artifact.uncompressedSizeBytes artifact.compressedSizeBytes
    artifact.retentionExpiresAt).isOk

def artifactRow (snapshotId : Uuid) (capturedAt : Time) (artifact : RawArtifactMetadata) :
    ArtifactRow where
  crawlSnapshotId := snapshotId
  storageLocation := artifact.storageLocation
  checksumSha256 := artifact.checksumSha256
  compression := artifact.compression
  uncompressedSizeBytes := artifact.uncompressedSizeBytes
  compressedSizeBytes := artifact.compressedSizeBytes
  retentionExpiresAt := artifact.retentionExpiresAt
  capturedAt := capturedAt

/-- A crawl commits its snapshot and the metadata of its body. -/
def Tables.capture (snapshot : SnapshotRow) (artifact : Option RawArtifactMetadata) : Tables :=
  if artifact.all isValidMetadata then
    { tables with
      snapshots := tables.snapshots ++ [{ snapshot with id := tables.nextId }]
      artifacts := tables.artifacts ++
        (artifact.map (artifactRow tables.nextId snapshot.capturedAt)).toList
      nextId := tables.nextId + 1 }
  else tables

end Catalogue

section Start

def queuedItem (runId : Uuid) (now : Time) (id : Uuid) (snapshot : SnapshotRow) : WorkItemRow where
  id := id
  runId := runId
  crawlSnapshotId := snapshot.id
  domainId := snapshot.domainId
  status := .queued
  attemptCount := 0
  nextAttemptAt := now
  claimedAt := none
  failureSummary := none
  completedAt := none
  createdAt := now
  updatedAt := now

/-- `INSERT INTO detection_reprocessing_work_items ... SELECT`: one item for each
snapshot. -/
def itemsFor (runId : Uuid) (now : Time) : Uuid → List SnapshotRow → List WorkItemRow
  | _, [] => []
  | id, snapshot :: rest => queuedItem runId now id snapshot :: itemsFor runId now (id + 1) rest

/-- The run as the transaction leaves it: without snapshots it is complete. -/
def requestedRun (runId versionId : Uuid) (requestedBy idempotencyKey : Text) (total : Nat)
    (now : Time) : RunRow where
  id := runId
  detectionRuleVersionId := versionId
  requestedBy := requestedBy
  idempotencyKey := idempotencyKey
  status := if total = 0 then .completed else .queued
  totalSnapshotCount := total
  succeededSnapshotCount := 0
  failedSnapshotCount := 0
  requestedAt := now
  startedAt := none
  finishedAt := if total = 0 then some now else none

def requestedEvent (actorSubject : Text) (runId : Uuid) : AuditEvent where
  actorSubject := actorSubject
  action := "detection_reprocessing.requested"
  resourceKind := "detection_reprocessing_run"
  resourceId := runId

/-- `start_reprocessing`. An idempotency key that is already used returns its run. A
new run is inserted together with its audit event, and with the event refused by a
check of its table the whole transaction is rolled back. -/
def startReprocessing (tables : Tables) (ruleSlug : Text) (ruleVersion : Nat)
    (idempotencyKey actorSubject : Text) (now : Time) :
    Except AdminOperationError (Tables × Uuid) := do
  let idempotencyKey := trim idempotencyKey
  require (!idempotencyKey.isEmpty && decide (utf8Length idempotencyKey ≤ 255) &&
    !(trim actorSubject).isEmpty) .validation
  require (decide (ruleVersion < 2 ^ 15)) .validation
  let version ← orError (tables.versions.find? fun version =>
    version.rule.ruleSlug == ruleSlug && version.rule.version == ruleVersion) .notFound
  match tables.runs.find? fun run => run.idempotencyKey == idempotencyKey with
  | some existing =>
      require (existing.detectionRuleVersionId == version.id) .conflict
      .ok (tables, existing.id)
  | none =>
      let runId := tables.nextId
      let items := itemsFor runId now (runId + 1) tables.snapshots
      -- `i32::try_from` of the count
      require (decide (items.length < 2 ^ 31)) .unavailable
      let event := requestedEvent actorSubject runId
      require (!(btrim event.actorSubject).isEmpty &&
        tables.auditKinds.contains event.resourceKind) .unavailable
      .ok ({ tables with
        runs := tables.runs ++
          [requestedRun runId version.id actorSubject idempotencyKey items.length now]
        items := tables.items ++ items
        auditEvents := tables.auditEvents ++ [event]
        nextId := runId + 1 + items.length }, runId)

end Start

section Claim

inductive RepositoryError
  | unavailable
  deriving DecidableEq, Repr

structure WorkItem where
  id : Uuid
  runId : Uuid
  snapshotId : Uuid
  domainId : Uuid
  technologyId : Uuid
  detectionRuleVersionId : Uuid
  capturedAt : Time
  attemptCount : Nat
  responseHeaders : List (Text × Text)
  artifact : Option RawArtifactMetadata
  rule : ActiveDetectionRule

/-- The inner joins of the claim. -/
def Tables.sourceOf (tables : Tables) (item : WorkItemRow) :
    Option (SnapshotRow × PublishedVersion) := do
  let run ← tables.runs.find? fun run => run.id == item.runId
  let snapshot ← tables.snapshots.find? fun snapshot => snapshot.id == item.crawlSnapshotId
  let version ← tables.versions.find? fun version => version.id == run.detectionRuleVersionId
  some (snapshot, version)

def WorkItemRow.isDue (now : Time) (item : WorkItemRow) : Bool :=
  item.status == .queued && decide (item.nextAttemptAt ≤ now)

/-- `ORDER BY next_attempt_at, created_at`. -/
def WorkItemRow.claimedBefore (left right : WorkItemRow) : Bool :=
  decide (left.nextAttemptAt < right.nextAttemptAt) ||
    (left.nextAttemptAt == right.nextAttemptAt && decide (left.createdAt ≤ right.createdAt))

def Tables.nextDue (tables : Tables) (now : Time) : Option WorkItemRow :=
  ((tables.items.filter fun item => item.isDue now && (tables.sourceOf item).isSome).insertionSort
    fun left right => left.claimedBefore right).head?

def WorkItemRow.claimedAtTime (now : Time) (item : WorkItemRow) : WorkItemRow :=
  { item with
    status := .running
    attemptCount := item.attemptCount + 1
    claimedAt := some now
    updatedAt := now }

def RunRow.startedAtTime (now : Time) (run : RunRow) : RunRow :=
  { run with status := .running, startedAt := some (run.startedAt.getD now) }

/-- The left join with `raw_artifacts`. -/
def Tables.artifactOf (tables : Tables) (snapshotId : Uuid) :
    Except RepositoryError (Option RawArtifactMetadata) :=
  match tables.artifacts.find? fun row => row.crawlSnapshotId == snapshotId with
  | none => .ok none
  | some row =>
      ((responseBody row.storageLocation row.checksumSha256 row.compression
        row.uncompressedSizeBytes row.compressedSizeBytes row.retentionExpiresAt).map some).mapError
        fun _ => .unavailable

/-- `claim_next_reprocessing_item`: one transaction, which gives up its updates
when the row cannot be read. `attempt_count` is a `SMALLINT`. -/
def claimNextReprocessingItem (tables : Tables) (now : Time) :
    Except RepositoryError (Tables × Option WorkItem) :=
  match tables.nextDue now with
  | none => .ok (tables, none)
  | some item => do
      require (decide (item.attemptCount + 1 < 2 ^ 15)) .unavailable
      let (snapshot, version) ← orError (tables.sourceOf item) .unavailable
      let artifact ← tables.artifactOf item.crawlSnapshotId
      .ok ({ tables with
        items := updateWhere (fun row => row.id == item.id) (WorkItemRow.claimedAtTime now)
          tables.items
        runs := updateWhere (fun run => run.id == item.runId && run.status == .queued)
          (RunRow.startedAtTime now) tables.runs },
        some {
          id := item.id
          runId := item.runId
          snapshotId := item.crawlSnapshotId
          domainId := item.domainId
          technologyId := version.technologyId
          detectionRuleVersionId := version.id
          capturedAt := snapshot.capturedAt
          attemptCount := item.attemptCount + 1
          responseHeaders := snapshot.responseHeaders
          artifact := artifact
          rule := version.rule })

end Claim

section Record

/-- `ReprocessingEvaluation` has the fields of a rule's evaluation. -/
abbrev ReprocessingEvaluation := RuleEvaluation

variable (tables : Tables)

def Tables.insertObservation (item : WorkItem) (status : RuleObservationStatus) :
    Option Tables :=
  (insertChecked
    (fun rows row => rows.all fun old => !(old.runId == row.runId &&
      old.crawlSnapshotId == row.crawlSnapshotId &&
      old.detectionRuleVersionId == row.detectionRuleVersionId))
    { runId := item.runId
      crawlSnapshotId := item.snapshotId
      detectionRuleVersionId := item.detectionRuleVersionId
      status := status
      observedAt := item.capturedAt }
    tables.observations).map fun rows => { tables with observations := rows }

/-- `reprocessed_detections_version_valid` and the unique key of the table. -/
def admitsReprocessed (rows : List ReprocessedDetectionRow) (row : ReprocessedDetectionRow) :
    Bool :=
  (row.technologyVersion.all fun version =>
    decide (1 ≤ version.length) && decide (version.length ≤ 128)) &&
    rows.all fun old => !(old.runId == row.runId &&
      old.crawlSnapshotId == row.crawlSnapshotId && old.technologyId == row.technologyId &&
      old.detectionRuleVersionId == row.detectionRuleVersionId)

/-- The checks and the primary key of `reprocessed_detection_evidence`. -/
def admitsEvidence (rows : List ReprocessedEvidenceRow) (row : ReprocessedEvidenceRow) : Bool :=
  decide (1 ≤ (btrim row.evidence.key).length) && decide ((btrim row.evidence.key).length ≤ 128) &&
    decide (1 ≤ (btrim row.evidence.value).length) &&
    decide ((btrim row.evidence.value).length ≤ 2048) && rows.all fun old => old != row

def insertEvidence (detectionId : Uuid) (rows : List ReprocessedEvidenceRow)
    (evidence : DetectionEvidence) : Option (List ReprocessedEvidenceRow) :=
  insertChecked admitsEvidence { reprocessedDetectionId := detectionId, evidence := evidence } rows

def Tables.insertDetection (item : WorkItem) (technologyVersion : Option Text) :
    Option Detection → Option Tables
  | none => some tables
  | some detection => do
      let detections ← insertChecked admitsReprocessed
        { id := tables.nextId
          runId := item.runId
          crawlSnapshotId := item.snapshotId
          technologyId := item.technologyId
          detectionRuleVersionId := item.detectionRuleVersionId
          confidence := detection.confidence.1
          technologyVersion := technologyVersion
          observedAt := item.capturedAt } tables.detections
      let evidence ← detection.evidence.foldlM (insertEvidence tables.nextId) tables.evidence
      some { tables with
        detections := detections
        evidence := evidence
        nextId := tables.nextId + 1 }

def WorkItemRow.succeededAtTime (completedAt : Time) (item : WorkItemRow) : WorkItemRow :=
  { item with
    status := .succeeded
    completedAt := some completedAt
    updatedAt := completedAt
    failureSummary := none }

def WorkItemRow.deadLetteredAt (summary : Text) (completedAt : Time) (item : WorkItemRow) :
    WorkItemRow :=
  { item with
    status := .deadLettered
    failureSummary := some summary
    completedAt := some completedAt
    updatedAt := completedAt }

def WorkItemRow.requeuedAt (summary : Text) (retryAt completedAt : Time) (item : WorkItemRow) :
    WorkItemRow :=
  { item with
    status := .queued
    failureSummary := some summary
    nextAttemptAt := retryAt
    claimedAt := none
    updatedAt := completedAt }

/-- An update of the item while it is `running`. -/
def Tables.updateItem (itemId : Uuid) (change : WorkItemRow → WorkItemRow) : Tables :=
  { tables with
    items := updateWhere (fun row => row.id == itemId && row.status == .running) change
      tables.items }

end Record

section Refresh

structure RunCounts where
  total : Nat
  succeeded : Nat
  failed : Nat
  pending : Nat
  deriving DecidableEq, Repr

variable (tables : Tables)

def Tables.countItems (runId : Uuid) : RunCounts :=
  let items := tables.items.filter fun item => item.runId == runId
  { total := items.length
    succeeded := items.countP fun item => item.status == .succeeded
    failed := items.countP fun item => item.status == .deadLettered
    pending := items.countP fun item => item.status.isPending }

def RunCounts.status (counts : RunCounts) : RunStatus :=
  if counts.pending = 0 then
    if counts.failed = 0 then .completed else .partialFailed
  else .running

def RunRow.refreshed (counts : RunCounts) (now : Time) (run : RunRow) : RunRow :=
  { run with
    totalSnapshotCount := counts.total
    succeededSnapshotCount := counts.succeeded
    failedSnapshotCount := counts.failed
    status := counts.status
    finishedAt := if counts.pending = 0 then some now else none }

/-- The update of the run, whose counts are `i32`s. -/
def Tables.updateRun (runId : Uuid) (counts : RunCounts) (now : Time) : Option Tables :=
  if counts.total < 2 ^ 31 ∧ counts.succeeded < 2 ^ 31 ∧ counts.failed < 2 ^ 31 then
    some { tables with
      runs := updateWhere (fun run => run.id == runId) (RunRow.refreshed counts now) tables.runs }
  else none

/-- An observation of the run with its snapshot, its rule and its detection. -/
structure RankedObservation where
  detectionId : Option Uuid
  crawlSnapshotId : Uuid
  domainId : Uuid
  technologyId : Uuid
  technologyVersion : Option Text
  observedAt : Time
  deriving DecidableEq, Repr

def Tables.rank (observation : ReprocessedObservationRow) : Option RankedObservation := do
  let snapshot ← tables.snapshots.find? fun row => row.id == observation.crawlSnapshotId
  let version ← tables.versions.find? fun row => row.id == observation.detectionRuleVersionId
  let detection := tables.detections.find? fun row => row.runId == observation.runId &&
    row.crawlSnapshotId == observation.crawlSnapshotId &&
    row.detectionRuleVersionId == observation.detectionRuleVersionId
  some {
    detectionId := detection.map ReprocessedDetectionRow.id
    crawlSnapshotId := observation.crawlSnapshotId
    domainId := snapshot.domainId
    technologyId := version.technologyId
    technologyVersion := detection.bind ReprocessedDetectionRow.technologyVersion
    observedAt := observation.observedAt }

/-- `ORDER BY observations.observed_at, observations.crawl_snapshot_id`. -/
def RankedObservation.before (left right : RankedObservation) : Bool :=
  decide (left.observedAt < right.observedAt) ||
    (left.observedAt == right.observedAt && decide (left.crawlSnapshotId ≤ right.crawlSnapshotId))

/-- `PARTITION BY snapshots.domain_id, technologies.id`. -/
def RankedObservation.samePartition (left right : RankedObservation) : Bool :=
  left.domainId == right.domainId && left.technologyId == right.technologyId

def Tables.ranked (runId : Uuid) : List RankedObservation :=
  ((tables.observations.filter fun row => row.runId == runId).filterMap tables.rank).insertionSort
    fun left right => left.before right

/-- Each observation with the one before it in its partition: `LAG`. The
observations already passed are held with the latest first. -/
def lagged : List RankedObservation → List RankedObservation →
    List (Option RankedObservation × RankedObservation)
  | _, [] => []
  | passed, row :: rest =>
      (passed.find? fun prior => prior.samePartition row, row) :: lagged (row :: passed) rest

/-- The selected row, where both versions are known and differ. -/
def versionChange (runId : Uuid) :
    Option RankedObservation × RankedObservation → Option VersionChangeRow
  | (prior, row) => do
      let prior ← prior
      let fromVersion ← prior.technologyVersion
      let toVersion ← row.technologyVersion
      if fromVersion = toVersion then none
      let priorId ← prior.detectionId
      let currentId ← row.detectionId
      some {
        reprocessingRunId := runId
        domainId := row.domainId
        technologyId := row.technologyId
        priorSnapshotId := prior.crawlSnapshotId
        currentSnapshotId := row.crawlSnapshotId
        priorReprocessedDetectionId := priorId
        currentReprocessedDetectionId := currentId
        fromVersion := fromVersion
        toVersion := toVersion
        observedAt := row.observedAt }

def Tables.derivedChanges (runId : Uuid) : List VersionChangeRow :=
  (lagged [] (tables.ranked runId)).filterMap (versionChange runId)

/-- `ON CONFLICT (reprocessing_run_id, current_reprocessed_detection_id) DO NOTHING`. -/
def addChange (rows : List VersionChangeRow) (row : VersionChangeRow) : List VersionChangeRow :=
  if rows.any fun old => old.reprocessingRunId == row.reprocessingRunId &&
      old.currentReprocessedDetectionId == row.currentReprocessedDetectionId then rows
  else rows ++ [row]

def Tables.insertVersionChanges (runId : Uuid) : Tables :=
  { tables with
    versionChanges := (tables.derivedChanges runId).foldl addChange tables.versionChanges }

def refreshRun (runId : Uuid) (now : Time) : Option Tables := do
  let counts := tables.countItems runId
  let tables ← tables.updateRun runId counts now
  some (if counts.pending = 0 then tables.insertVersionChanges runId else tables)

def recordReprocessingSuccess (item : WorkItem) (evaluation : ReprocessingEvaluation)
    (completedAt : Time) : Option Tables := do
  let tables ← tables.insertObservation item evaluation.observation.status
  let tables ← tables.insertDetection item evaluation.technologyVersion evaluation.detection
  refreshRun (tables.updateItem item.id (WorkItemRow.succeededAtTime completedAt)) item.runId
    completedAt

def boundedSummary (summary : Text) : Text := (trim summary).take 1024

def recordReprocessingFailure (itemId : Uuid) (summary : Text) (retryAt : Time) (terminal : Bool)
    (completedAt : Time) : Option Tables := do
  let item ← tables.items.find? fun row => row.id == itemId
  let summary := boundedSummary summary
  let change := if terminal then WorkItemRow.deadLetteredAt summary completedAt
    else WorkItemRow.requeuedAt summary retryAt completedAt
  refreshRun (tables.updateItem itemId change) item.runId completedAt

end Refresh

end TechAtlas.Reprocessing
