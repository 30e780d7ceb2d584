import TechAtlas.Library.Table
import TechAtlas.Scheduling
import TechAtlas.Projection
import TechAtlas.Url

set_option autoImplicit false

/- The tables of the migrations that the crawl pipeline reads and writes. A
`CHECK`, `UNIQUE` or trigger that a statement can violate is part of the
operation on its table, which then fails. -/
namespace TechAtlas.Store

open Library

structure DomainRow where
  id : Uuid
  canonicalDomain : Text
  archivedAt : Option Time
  deriving DecidableEq, Repr

/-- `btrim` removes spaces only. -/
def btrim (text : Text) : Text := (text.dropWhile (· == ' ')).rdropWhile (· == ' ')

/-- `domains_canonical_domain_normalized`. -/
def DomainRow.valid (row : DomainRow) : Bool :=
  asciiLowercase row.canonicalDomain == row.canonicalDomain &&
    btrim row.canonicalDomain == row.canonicalDomain && !row.canonicalDomain.isEmpty

def DomainRow.isActive (row : DomainRow) : Bool := row.archivedAt.isNone

structure PolicyRow where
  domainId : Uuid
  isEnabled : Bool
  priority : CrawlPriority
  desiredInterval : Duration
  lastCrawlAt : Option Time
  lastSuccessfulCrawlAt : Option Time
  nextCrawlAt : Option Time
  consecutiveFailureCount : Nat
  lastFailureAt : Option Time
  terminalFailureAt : Option Time
  createdAt : Time
  updatedAt : Time
  deriving DecidableEq, Repr

/-- An optional time at or after the given one. -/
def notBefore (floor : Time) : Option Time → Bool
  | none => true
  | some t => decide (floor ≤ t)

/-- The range of `TIMESTAMPTZ`. -/
def timestampInRange (t : Time) : Bool :=
  decide (-210866803200000000 ≤ t) && decide (t < 9224318016000000000)

/-- The `crawl_policies` checks and the ranges of its computed columns. -/
def PolicyRow.valid (row : PolicyRow) : Bool :=
  decide (0 < row.desiredInterval) && decide (row.consecutiveFailureCount < 2 ^ 31) &&
    row.nextCrawlAt.all timestampInRange &&
    notBefore row.createdAt row.lastCrawlAt && notBefore row.createdAt row.lastSuccessfulCrawlAt &&
    notBefore row.createdAt row.nextCrawlAt && notBefore row.createdAt row.lastFailureAt &&
    notBefore row.createdAt row.terminalFailureAt

inductive AttemptStatus
  | queued
  | running
  | succeeded
  | failed
  | cancelled
  deriving DecidableEq, Repr

/-- `status IN ('queued', 'running')`. -/
def AttemptStatus.isActive : AttemptStatus → Bool
  | .queued | .running => true
  | _ => false

/-- `status IN ('succeeded', 'failed', 'cancelled')`. -/
def AttemptStatus.isTerminal : AttemptStatus → Bool
  | .succeeded | .failed | .cancelled => true
  | _ => false

theorem AttemptStatus.isTerminal_eq_not_isActive (status : AttemptStatus) :
    status.isTerminal = !status.isActive := by
  cases status <;> rfl

structure AttemptRow where
  id : Uuid
  domainId : Uuid
  jobId : Uuid
  correlationId : Uuid
  idempotencyKey : IdempotencyKey
  attemptNumber : Nat
  status : AttemptStatus
  queuedAt : Time
  startedAt : Option Time
  finishedAt : Option Time
  failureCode : Option Text
  failureSummary : Option Text
  createdAt : Time
  deriving DecidableEq, Repr

/-- `crawl_attempts_lifecycle_valid`. -/
def AttemptRow.lifecycleValid (row : AttemptRow) : Bool :=
  match row.status with
  | .queued => row.startedAt.isNone && row.finishedAt.isNone && row.failureCode.isNone
  | .running => row.startedAt.isSome && row.finishedAt.isNone && row.failureCode.isNone
  | .succeeded => row.startedAt.isSome && row.finishedAt.isSome && row.failureCode.isNone
  | .failed => row.startedAt.isSome && row.finishedAt.isSome && row.failureCode.isSome
  | .cancelled => row.finishedAt.isSome

/-- `crawl_attempts_finished_at_valid`. -/
def AttemptRow.finishValid (row : AttemptRow) : Bool :=
  match row.finishedAt with
  | none => true
  | some finished =>
      (match row.startedAt with
        | some started => decide (started ≤ finished)
        | none => false) ||
      (row.status == .cancelled && decide (row.queuedAt ≤ finished))

def AttemptRow.valid (row : AttemptRow) : Bool :=
  decide (0 < row.attemptNumber) && decide (row.attemptNumber < 2 ^ 15) &&
    decide (row.createdAt ≤ row.queuedAt) && notBefore row.queuedAt row.startedAt &&
    row.finishValid && row.lifecycleValid &&
    (match row.failureSummary with
      | none => true
      | some summary => decide (summary.length ≤ 1024))

structure OutboxRow where
  crawlAttemptId : Uuid
  domainId : Uuid
  jobId : Uuid
  correlationId : Uuid
  idempotencyKey : IdempotencyKey
  availableAt : Time
  nextPublishAt : Time
  publishAttemptCount : Nat
  publishedAt : Option Time
  terminalFailureAt : Option Time
  lastErrorSummary : Option Text
  createdAt : Time
  updatedAt : Time
  deriving DecidableEq, Repr

/-- The `crawl_job_outbox` checks. -/
def OutboxRow.valid (row : OutboxRow) : Bool :=
  decide (row.createdAt ≤ row.availableAt) && decide (row.createdAt ≤ row.nextPublishAt) &&
    notBefore row.createdAt row.publishedAt && notBefore row.createdAt row.terminalFailureAt &&
    (row.publishedAt.isNone || row.terminalFailureAt.isNone) &&
    decide (row.publishAttemptCount < 2 ^ 15)

/-- Neither published nor given up. -/
def OutboxRow.isPending (row : OutboxRow) : Bool :=
  row.publishedAt.isNone && row.terminalFailureAt.isNone

structure CrawlRedirectMetadata where
  fromUrl : Text
  toUrl : Text
  status : Nat
  deriving DecidableEq, Repr

structure SnapshotRow where
  id : Uuid
  crawlAttemptId : Uuid
  domainId : Uuid
  requestedUrl : Text
  finalUrl : Text
  redirectChain : List CrawlRedirectMetadata
  responseStatus : Nat
  responseHeaders : List (Text × Text)
  responseBodyBytes : Nat
  capturedAt : Time
  deriving DecidableEq, Repr

def SnapshotRow.valid (row : SnapshotRow) : Bool :=
  !(btrim row.requestedUrl).isEmpty && !(btrim row.finalUrl).isEmpty &&
    decide (100 ≤ row.responseStatus) && decide (row.responseStatus ≤ 599) &&
    decide (row.responseBodyBytes < 2 ^ 63)

structure CountryObservationRow where
  crawlSnapshotId : Uuid
  countryCode : Text
  source : Text
  sourceVersion : Text
  observedAt : Time
  deriving DecidableEq, Repr

structure RefreshRequestRow where
  domainId : Uuid
  requestedAt : Time
  deriving DecidableEq, Repr

structure SourceRow where
  id : Uuid
  name : Text
  deriving DecidableEq, Repr

inductive ImportStatus
  | pending
  | processing
  | completed
  | failed
  deriving DecidableEq, Repr

structure ImportBatchRow where
  id : Uuid
  sourceId : Uuid
  initiatedBy : Text
  status : ImportStatus
  acceptedRowCount : Nat
  duplicateRowCount : Nat
  rejectedRowCount : Nat
  deriving DecidableEq, Repr

inductive CsvImportRowStatus
  | accepted
  | duplicate
  | rejected
  deriving DecidableEq, Repr

structure ImportRow where
  importId : Uuid
  rowNumber : Nat
  inputDomain : Text
  canonicalDomain : Option Text
  domainId : Option Uuid
  status : CsvImportRowStatus
  errorCode : Option Text
  deriving DecidableEq, Repr

structure AuditEvent where
  actorSubject : Text
  action : String
  resourceKind : String
  resourceId : Uuid
  deriving DecidableEq, Repr

structure CategoryRow where
  id : Uuid
  slug : Text
  displayName : Text
  deriving DecidableEq

structure TechnologyRow where
  id : Uuid
  categoryId : Uuid
  slug : Text
  displayName : Text
  deriving DecidableEq

structure RuleRow where
  id : Uuid
  technologyId : Uuid
  slug : Text
  deriving DecidableEq

structure RuleVersionRow where
  id : Uuid
  ruleId : Uuid
  version : Nat
  deriving DecidableEq, Repr

structure ProviderRow where
  id : Uuid
  slug : Text
  displayName : Text
  deriving DecidableEq

structure ProviderMappingRow where
  technologyId : Uuid
  providerId : Uuid
  deriving DecidableEq, Repr

/-- The technology catalogue, which the crawl pipeline only reads, with the
uniqueness the migrations declare. -/
structure Catalogue where
  categories : List CategoryRow
  technologies : List TechnologyRow
  rules : List RuleRow
  ruleVersions : List RuleVersionRow
  providers : List ProviderRow
  providerMappings : List ProviderMappingRow
  categories_id_nodup : (categories.map CategoryRow.id).Nodup
  categories_slug_nodup : (categories.map CategoryRow.slug).Nodup
  technologies_id_nodup : (technologies.map TechnologyRow.id).Nodup
  technologies_slug_nodup : (technologies.map TechnologyRow.slug).Nodup
  rules_slug_nodup : (rules.map RuleRow.slug).Nodup
  rules_technology_nodup : (rules.map RuleRow.technologyId).Nodup
  ruleVersions_nodup : (ruleVersions.map fun row => (row.ruleId, row.version)).Nodup
  providers_slug_nodup : (providers.map ProviderRow.slug).Nodup
  providerMappings_nodup : (providerMappings.map ProviderMappingRow.technologyId).Nodup
  technologies_category : ∀ technology ∈ technologies,
    ∃ category ∈ categories, category.id = technology.categoryId

def Catalogue.empty : Catalogue where
  categories := []
  technologies := []
  rules := []
  ruleVersions := []
  providers := []
  providerMappings := []
  categories_id_nodup := List.nodup_nil
  categories_slug_nodup := List.nodup_nil
  technologies_id_nodup := List.nodup_nil
  technologies_slug_nodup := List.nodup_nil
  rules_slug_nodup := List.nodup_nil
  rules_technology_nodup := List.nodup_nil
  ruleVersions_nodup := List.nodup_nil
  providers_slug_nodup := List.nodup_nil
  providerMappings_nodup := List.nodup_nil
  technologies_category := by simp

structure DetectionRow where
  id : Uuid
  crawlSnapshotId : Uuid
  technologyId : Uuid
  ruleVersionId : Uuid
  confidence : Nat
  observedAt : Time
  deriving DecidableEq, Repr

structure EvidenceRow where
  detectionId : Uuid
  evidence : DetectionEvidence
  deriving DecidableEq, Repr

structure ObservationRow where
  crawlSnapshotId : Uuid
  ruleVersionId : Uuid
  status : RuleObservationStatus
  observedAt : Time
  deriving DecidableEq, Repr

structure CurrentRow where
  domainId : Uuid
  technologyId : Uuid
  currentDetectionId : Uuid
  firstSnapshotId : Uuid
  lastSnapshotId : Uuid
  firstObservedAt : Time
  lastObservedAt : Time
  deriving DecidableEq, Repr

structure ChangeRow where
  domainId : Uuid
  kind : TechnologyChangeKind
  categoryId : Uuid
  priorSnapshotId : Option Uuid
  currentSnapshotId : Uuid
  priorDetectionId : Option Uuid
  currentDetectionId : Option Uuid
  fromTechnologyId : Option Uuid
  toTechnologyId : Option Uuid
  observedAt : Time
  deriving DecidableEq, Repr

/-- `technology_changes_shape_valid`. -/
def ChangeRow.shapeValid (row : ChangeRow) : Bool :=
  match row.kind with
  | .added =>
      row.priorSnapshotId.isNone && row.priorDetectionId.isNone && row.fromTechnologyId.isNone &&
        row.currentDetectionId.isSome && row.toTechnologyId.isSome
  | .removed =>
      row.priorSnapshotId.isSome && row.priorDetectionId.isSome && row.fromTechnologyId.isSome &&
        row.currentDetectionId.isNone && row.toTechnologyId.isNone
  | .migrated =>
      row.priorSnapshotId.isSome && row.priorDetectionId.isSome && row.fromTechnologyId.isSome &&
        row.currentDetectionId.isSome && row.toTechnologyId.isSome

/-- What evaluating the rules has recorded: immutable observations and the
projection derived from them. -/
structure History where
  detections : List DetectionRow
  evidence : List EvidenceRow
  observations : List ObservationRow
  current : List CurrentRow
  changes : List ChangeRow

inductive RawArtifactCompression
  | zstd
  deriving DecidableEq, Repr

structure ArtifactRow where
  crawlSnapshotId : Uuid
  storageLocation : Text
  checksumSha256 : Text
  compression : RawArtifactCompression
  uncompressedSizeBytes : Nat
  compressedSizeBytes : Nat
  retentionExpiresAt : Time
  capturedAt : Time
  deriving DecidableEq, Repr

def ArtifactRow.valid (row : ArtifactRow) : Bool :=
  !(btrim row.storageLocation).isEmpty && decide (row.uncompressedSizeBytes < 2 ^ 63) &&
    decide (row.compressedSizeBytes < 2 ^ 63) &&
    (row.uncompressedSizeBytes == 0 || decide (0 < row.compressedSizeBytes)) &&
    decide (row.capturedAt ≤ row.retentionExpiresAt)

inductive IndexStatus
  | pending
  | processing
  | retry
  | dead
  deriving DecidableEq, Repr

structure IndexOutboxRow where
  id : Uuid
  domainId : Uuid
  status : IndexStatus
  attemptCount : Nat
  nextAttemptAt : Time
  claimedAt : Option Time
  lastError : Option Text
  createdAt : Time
  updatedAt : Time
  deriving DecidableEq, Repr

/-- `nextIndexId` stands for `gen_random_uuid()` in `search_index_outbox`, which
never draws an identifier twice. -/
structure Database where
  catalogue : Catalogue
  domains : List DomainRow
  policies : List PolicyRow
  attempts : List AttemptRow
  outbox : List OutboxRow
  snapshots : List SnapshotRow
  countryObservations : List CountryObservationRow
  artifacts : List ArtifactRow
  refreshRequests : List RefreshRequestRow
  sources : List SourceRow
  imports : List ImportBatchRow
  importRows : List ImportRow
  memberships : List (Uuid × Uuid)
  history : History
  indexOutbox : List IndexOutboxRow
  nextIndexId : Uuid
  auditEvents : List AuditEvent

/-- The store after the migrations: a catalogue and no domain. -/
def Database.initial (catalogue : Catalogue) : Database where
  catalogue := catalogue
  domains := []
  policies := []
  attempts := []
  outbox := []
  snapshots := []
  countryObservations := []
  artifacts := []
  refreshRequests := []
  sources := []
  imports := []
  importRows := []
  memberships := []
  history := { detections := [], evidence := [], observations := [], current := [], changes := [] }
  indexOutbox := []
  nextIndexId := 0
  auditEvents := []

end TechAtlas.Store
