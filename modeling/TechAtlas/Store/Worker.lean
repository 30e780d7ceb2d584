import TechAtlas.Store.Scheduler

set_option autoImplicit false

/- `PostgresCrawlWorkerRepository`: claiming an attempt and recording what a
crawl found. -/
namespace TechAtlas.Store

open Library

/-- Where an `Unavailable` came from; the source does not tell these apart. -/
inductive UnavailableReason
  | database
  | missingDetection
  | emptyChange
  | changeShape
  deriving DecidableEq, Repr

inductive CrawlWorkerRepositoryError
  | notFound
  | unavailable (reason : UnavailableReason)
  deriving DecidableEq, Repr

section Claim

inductive ClaimedCrawlAttempt
  | ready (canonicalDomain : CanonicalDomain)
  | terminal

def AttemptRow.claimedAt (startedAt : Time) (attempt : AttemptRow) : AttemptRow :=
  { attempt with
    status := .running
    startedAt := some (attempt.startedAt.getD startedAt) }

/-- The four columns a message has to agree with. -/
def AttemptRow.matchesJob (job : CrawlJobV1) (attempt : AttemptRow) : Bool :=
  attempt.jobId == job.jobId && attempt.domainId == job.domainId &&
    attempt.correlationId == job.correlationId && attempt.idempotencyKey == job.idempotencyKey

/-- `crawl_attempts JOIN domains`, for the attempt of a message. -/
def Database.attemptWithDomain (db : Database) (job : CrawlJobV1) :
    Option (AttemptRow × DomainRow) :=
  db.attempts.findSome? fun attempt =>
    if attempt.matchesJob job then
      (db.domainOf attempt.domainId).map fun domain => (attempt, domain)
    else none

def claimAttempt (crate : UrlCrate) (db : Database) (job : CrawlJobV1) (startedAt : Time) :
    Except CrawlWorkerRepositoryError (Database × ClaimedCrawlAttempt) := do
  let (attempt, domain) ← orError (db.attemptWithDomain job) .notFound
  if attempt.status.isTerminal then .ok (db, .terminal)
  else
    match CanonicalDomain.parse crate domain.canonicalDomain with
    | .error _ => .error (.unavailable .database)
    | .ok canonicalDomain => do
        let db ← orError (db.updateAttempt attempt.id (AttemptRow.claimedAt startedAt))
          (.unavailable .database)
        .ok (db, .ready canonicalDomain)

end Claim

section Records

structure CountryObservation where
  countryCode : Text
  source : Text
  sourceVersion : Text
  deriving DecidableEq, Repr

structure CrawlSnapshotMetadata where
  requestedUrl : Text
  finalUrl : Text
  redirects : List CrawlRedirectMetadata
  responseStatus : Nat
  responseHeaders : List (Text × Text)
  bodySizeBytes : Nat
  capturedAt : Time
  countryObservation : Option CountryObservation
  deriving DecidableEq, Repr

structure RawArtifactMetadata where
  storageLocation : Text
  checksumSha256 : Text
  compression : RawArtifactCompression
  uncompressedSizeBytes : Nat
  compressedSizeBytes : Nat
  retentionExpiresAt : Time
  deriving DecidableEq, Repr

structure SuccessfulCrawlRecord where
  snapshot : CrawlSnapshotMetadata
  artifact : Option RawArtifactMetadata
  detections : List Detection
  observations : List RuleObservation

/-- The identifiers the transaction draws: one snapshot and one per detection. -/
structure FreshSnapshot where
  snapshotId : Uuid
  detectionId : Nat → Uuid

end Records

section Snapshot

def snapshotRow (attempt : AttemptRow) (snapshotId : Uuid) (snapshot : CrawlSnapshotMetadata) :
    SnapshotRow where
  id := snapshotId
  crawlAttemptId := attempt.id
  domainId := attempt.domainId
  requestedUrl := snapshot.requestedUrl
  finalUrl := snapshot.finalUrl
  redirectChain := snapshot.redirects
  responseStatus := snapshot.responseStatus
  responseHeaders := snapshot.responseHeaders
  responseBodyBytes := snapshot.bodySizeBytes
  capturedAt := snapshot.capturedAt

/-- The checks, the unique attempt and the trigger that requires it to have
succeeded. -/
def admitsSnapshot (attempts : List AttemptRow) (snapshots : List SnapshotRow)
    (row : SnapshotRow) : Bool :=
  row.valid &&
    (attempts.any fun attempt => attempt.id == row.crawlAttemptId && attempt.status == .succeeded) &&
    snapshots.all fun old => old.id != row.id && old.crawlAttemptId != row.crawlAttemptId

def insertSnapshot (db : Database) (row : SnapshotRow) : Option Database :=
  (insertChecked (admitsSnapshot db.attempts) row db.snapshots).map fun snapshots =>
    { db with snapshots := snapshots }

def insertCountry (db : Database) (snapshotId : Uuid) (capturedAt : Time) :
    Option CountryObservation → Option Database
  | none => some db
  | some country =>
      (insertChecked
        (fun rows row => rows.all fun old => old.crawlSnapshotId != row.crawlSnapshotId)
        { crawlSnapshotId := snapshotId
          countryCode := country.countryCode
          source := country.source
          sourceVersion := country.sourceVersion
          observedAt := capturedAt }
        db.countryObservations).map fun rows => { db with countryObservations := rows }

def insertArtifact (db : Database) (snapshotId : Uuid) (capturedAt : Time) :
    Option RawArtifactMetadata → Option Database
  | none => some db
  | some artifact =>
      (insertChecked
        (fun rows row =>
          row.valid && rows.all fun old => old.crawlSnapshotId != row.crawlSnapshotId)
        { crawlSnapshotId := snapshotId
          storageLocation := artifact.storageLocation
          checksumSha256 := artifact.checksumSha256
          compression := artifact.compression
          uncompressedSizeBytes := artifact.uncompressedSizeBytes
          compressedSizeBytes := artifact.compressedSizeBytes
          retentionExpiresAt := artifact.retentionExpiresAt
          capturedAt := capturedAt }
        db.artifacts).map fun rows => { db with artifacts := rows }

end Snapshot

section Detections

def Catalogue.technologyFor (catalogue : Catalogue) (slug : Text) : Option TechnologyRow :=
  catalogue.technologies.find? fun technology => technology.slug == slug

def Catalogue.categoryOf (catalogue : Catalogue) (technology : TechnologyRow) :
    Option CategoryRow :=
  catalogue.categories.find? fun category => category.id == technology.categoryId

/-- The join of technology, category, rule and rule version; every step is
unique in the catalogue. -/
def Catalogue.ruleVersionFor (catalogue : Catalogue) (technologySlug categorySlug ruleSlug : Text)
    (version : Nat) : Option (TechnologyRow × RuleVersionRow) := do
  let technology ← catalogue.technologyFor technologySlug
  let category ← catalogue.categoryOf technology
  if category.slug ≠ categorySlug then none
  let rule ← catalogue.rules.find? fun rule =>
    rule.technologyId == technology.id && rule.slug == ruleSlug
  let ruleVersion ← catalogue.ruleVersions.find? fun row =>
    row.ruleId == rule.id && row.version == version
  -- `i16::try_from` of the version
  if 2 ^ 15 ≤ version then none
  some (technology, ruleVersion)

def admitsDetection (rows : List DetectionRow) (row : DetectionRow) : Bool :=
  rows.all fun old => old.id != row.id &&
    (old.crawlSnapshotId != row.crawlSnapshotId || old.technologyId != row.technologyId ||
      old.ruleVersionId != row.ruleVersionId)

def insertDetection (catalogue : Catalogue) (snapshotId : Uuid) (capturedAt : Time)
    (history : History) (id : Uuid) (detection : Detection) : Option History := do
  let (technology, ruleVersion) ← catalogue.ruleVersionFor detection.technologySlug.1
    detection.technologyCategorySlug.1 detection.ruleSlug.1 detection.ruleVersion.1
  let detections ← insertChecked admitsDetection
    { id := id
      crawlSnapshotId := snapshotId
      technologyId := technology.id
      ruleVersionId := ruleVersion.id
      confidence := detection.confidence.1
      observedAt := capturedAt } history.detections
  let evidence := detection.evidence.map fun item => { detectionId := id, evidence := item }
  some { history with detections := detections, evidence := history.evidence ++ evidence }

/-- `detection_ids`, the newest entry first. -/
abbrev DetectionIds := List (TechnologySlug × Uuid)

def recordDetections (catalogue : Catalogue) (snapshotId : Uuid) (capturedAt : Time)
    (fresh : Nat → Uuid) : History → DetectionIds → Nat → List Detection →
    Option (History × DetectionIds)
  | history, ids, _, [] => some (history, ids)
  | history, ids, n, detection :: rest => do
      let history ← insertDetection catalogue snapshotId capturedAt history (fresh n) detection
      recordDetections catalogue snapshotId capturedAt fresh history
        ((detection.technologySlug, fresh n) :: ids) (n + 1) rest

end Detections

section ApplyProjection

variable (catalogue : Catalogue) (domainId snapshotId : Uuid) (capturedAt : Time)

def insertObservation (history : History) (observation : RuleObservation) : Option History := do
  let (_, ruleVersion) ← catalogue.ruleVersionFor observation.technologySlug.1
    observation.technologyCategorySlug.1 observation.ruleSlug.1 observation.ruleVersion.1
  let observations ← insertChecked
    (fun rows row => rows.all fun old =>
      old.crawlSnapshotId != row.crawlSnapshotId || old.ruleVersionId != row.ruleVersionId)
    { crawlSnapshotId := snapshotId
      ruleVersionId := ruleVersion.id
      status := observation.status
      observedAt := capturedAt } history.observations
  some { history with observations := observations }

/-- A current technology with the identifiers its row holds. -/
structure PersistedCurrentTechnology where
  slugText : Text
  state : CurrentTechnology
  technologyId : Uuid
  categoryId : Uuid
  detectionId : Uuid
  snapshotId : Uuid

/-- A row of the join that reads the previous state, before its slugs are parsed. -/
def joinCurrent (row : CurrentRow) : Option (CurrentRow × TechnologyRow × CategoryRow) := do
  let technology ← catalogue.technologies.find? fun technology => technology.id == row.technologyId
  let category ← catalogue.categoryOf technology
  some (row, technology, category)

def persistedCurrent (joined : CurrentRow × TechnologyRow × CategoryRow) :
    Option PersistedCurrentTechnology := do
  let (row, technology, category) := joined
  let technologySlug ← Slug.parse technology.slug
  let categorySlug ← Slug.parse category.slug
  some {
    slugText := technology.slug
    state := { technologySlug := technologySlug, technologyCategorySlug := categorySlug }
    technologyId := row.technologyId
    categoryId := category.id
    detectionId := row.currentDetectionId
    snapshotId := row.lastSnapshotId }

def previousTechnologies (current : List CurrentRow) : Option (List PersistedCurrentTechnology) :=
  ((current.filter fun row => row.domainId == domainId).filterMap (joinCurrent catalogue)).mapM
    persistedCurrent

/-- `DELETE FROM domain_current_technologies USING technologies`. -/
def deactivate (current : List CurrentRow) (state : CurrentTechnology) : List CurrentRow :=
  current.filter fun row =>
    !(row.domainId == domainId && catalogue.technologies.any fun technology =>
      technology.id == row.technologyId && technology.slug == state.technologySlug.1)

/-- The row an `ON CONFLICT DO UPDATE` writes, when its check holds. -/
def upsertCurrent (current : List CurrentRow) (technologyId detectionId : Uuid) :
    Option (List CurrentRow) :=
  let selected := fun row : CurrentRow =>
    row.domainId == domainId && row.technologyId == technologyId
  if current.any selected then
    updateChecked selected (fun _ => true) (fun row => decide (row.firstObservedAt ≤ row.lastObservedAt))
      (fun row => { row with
        currentDetectionId := detectionId
        lastSnapshotId := snapshotId
        lastObservedAt := capturedAt }) current
  else
    some (current ++ [{
      domainId := domainId
      technologyId := technologyId
      currentDetectionId := detectionId
      firstSnapshotId := snapshotId
      lastSnapshotId := snapshotId
      firstObservedAt := capturedAt
      lastObservedAt := capturedAt }])

/-- A technology whose category does not match is not inserted, and no error
is raised. -/
def activate (ids : DetectionIds) (current : List CurrentRow) (state : CurrentTechnology) :
    Except UnavailableReason (List CurrentRow) := do
  let detectionId ← orError (ids.lookup state.technologySlug) .missingDetection
  match catalogue.technologyFor state.technologySlug.1 with
  | none => .ok current
  | some technology =>
      match catalogue.categoryOf technology with
      | none => .ok current
      | some category =>
          if category.slug = state.technologyCategorySlug.1 then
            orError (upsertCurrent domainId snapshotId capturedAt current technology.id detectionId)
              .database
          else .ok current

/-- The `technology_changes` row of one change. -/
def changeRow (previous : List PersistedCurrentTechnology) (ids : DetectionIds)
    (change : TechnologyChange) : Except UnavailableReason ChangeRow := do
  let persisted := change.source.bind fun state =>
    previous.find? fun entry => entry.slugText == state.technologySlug.1
  let categoryId ← match persisted, change.target with
    | some entry, _ => .ok entry.categoryId
    | none, some state =>
        orError ((catalogue.categories.find? fun category =>
          category.slug == state.technologyCategorySlug.1).map CategoryRow.id) .database
    | none, none => .error .emptyChange
  .ok {
    domainId := domainId
    kind := change.kind
    categoryId := categoryId
    priorSnapshotId := persisted.map PersistedCurrentTechnology.snapshotId
    currentSnapshotId := snapshotId
    priorDetectionId := persisted.map PersistedCurrentTechnology.detectionId
    currentDetectionId := change.target.bind fun state => ids.lookup state.technologySlug
    fromTechnologyId := persisted.map PersistedCurrentTechnology.technologyId
    toTechnologyId := change.target.bind fun state =>
      (catalogue.technologyFor state.technologySlug.1).map TechnologyRow.id
    observedAt := capturedAt }

def insertChange (previous : List PersistedCurrentTechnology) (ids : DetectionIds)
    (changes : List ChangeRow) (change : TechnologyChange) :
    Except UnavailableReason (List ChangeRow) := do
  let row ← changeRow catalogue domainId snapshotId capturedAt previous ids change
  require row.shapeValid .changeShape
  .ok (changes ++ [row])

def applyProjection (history : History) (observations : List RuleObservation)
    (ids : DetectionIds) : Except UnavailableReason History := do
  let history ← orError
    (observations.foldlM (insertObservation catalogue snapshotId capturedAt) history) .database
  let previous ← orError (previousTechnologies catalogue domainId history.current) .database
  let transition := deriveProjection (previous.map PersistedCurrentTechnology.state) observations
  let remaining := transition.deactivate.foldl (deactivate catalogue domainId) history.current
  let current ← transition.activate.foldlM
    (activate catalogue domainId snapshotId capturedAt ids) remaining
  let changes ← transition.changes.foldlM
    (insertChange catalogue domainId snapshotId capturedAt previous ids) history.changes
  .ok { history with current := current, changes := changes }

end ApplyProjection

section RecordSuccess

def IndexOutboxRow.repended (capturedAt : Time) (row : IndexOutboxRow) : IndexOutboxRow :=
  { row with
    status := .pending
    attemptCount := 0
    nextAttemptAt := capturedAt
    claimedAt := none
    lastError := none
    updatedAt := capturedAt }

def pendingIndex (id domainId : Uuid) (capturedAt : Time) : IndexOutboxRow where
  id := id
  domainId := domainId
  status := .pending
  attemptCount := 0
  nextAttemptAt := capturedAt
  claimedAt := none
  lastError := none
  createdAt := capturedAt
  updatedAt := capturedAt

/-- `INSERT INTO search_index_outbox ... ON CONFLICT (domain_id) DO UPDATE`. -/
def pendIndex (rows : List IndexOutboxRow) (id domainId : Uuid) (capturedAt : Time) :
    List IndexOutboxRow :=
  if rows.any fun row => row.domainId == domainId then
    updateWhere (fun row => row.domainId == domainId) (IndexOutboxRow.repended capturedAt) rows
  else rows ++ [pendingIndex id domainId capturedAt]

/-- The detections and the projection of one snapshot. -/
def recordHistory (catalogue : Catalogue) (domainId : Uuid) (fresh : FreshSnapshot)
    (record : SuccessfulCrawlRecord) (history : History) : Except UnavailableReason History := do
  let capturedAt := record.snapshot.capturedAt
  let (history, ids) ← orError (recordDetections catalogue fresh.snapshotId capturedAt
    fresh.detectionId history [] 0 record.detections) .database
  applyProjection catalogue domainId fresh.snapshotId capturedAt history record.observations ids

/-- The statements of `record_success` once the attempt is locked. -/
def persistSuccess (db : Database) (attempt : AttemptRow) (record : SuccessfulCrawlRecord)
    (fresh : FreshSnapshot) : Except UnavailableReason Database := do
  let capturedAt := record.snapshot.capturedAt
  let db ← orError (db.updateAttempt attempt.id (AttemptRow.succeededAt capturedAt)) .database
  let db ← orError (insertSnapshot db (snapshotRow attempt fresh.snapshotId record.snapshot))
    .database
  let db ← orError (insertCountry db fresh.snapshotId capturedAt record.snapshot.countryObservation)
    .database
  let db ← orError (insertArtifact db fresh.snapshotId capturedAt record.artifact) .database
  let history ← recordHistory db.catalogue attempt.domainId fresh record db.history
  let db := { db with
    history := history
    indexOutbox := pendIndex db.indexOutbox db.nextIndexId attempt.domainId capturedAt
    nextIndexId := db.nextIndexId + 1 }
  orError (db.updatePolicy attempt.domainId (PolicyRow.succeededAt capturedAt)) .database

def recordSuccess (db : Database) (job : CrawlJobV1) (record : SuccessfulCrawlRecord)
    (fresh : FreshSnapshot) : Except CrawlWorkerRepositoryError Database := do
  let (attempt, _) ← orError (db.attemptWithPolicy (AttemptRow.matchesJob job)) .notFound
  if attempt.status.isTerminal then .ok db
  else (persistSuccess db attempt record fresh).mapError .unavailable

/-- The worker records a failure through the scheduler's transaction. -/
def recordFailure (db : Database) (job : CrawlJobV1) (failure : CrawlFailure) (finishedAt : Time)
    (settings : SchedulerSettings) (fresh : FreshJob) :
    Except CrawlWorkerRepositoryError Database :=
  (recordAttemptOutcome db job.jobId (.failed failure) finishedAt settings fresh).mapError
    fun
      | .notFound => .notFound
      | .unavailable => .unavailable .database

end RecordSuccess

end TechAtlas.Store
