import TechAtlas.Store.PublicRead
import TechAtlas.Store.Worker

set_option autoImplicit false

/- `PostgresSearchIndexRepository`: claiming outbox rows for indexing, the
projection of a domain and the end of a job. -/
namespace TechAtlas.Store

open Library

inductive SearchIndexRepositoryError
  | unavailable
  deriving DecidableEq, Repr

structure SearchIndexJob where
  id : Uuid
  domainId : Uuid
  attemptCount : Nat
  deriving DecidableEq, Repr

section Claim

/-- The `WHERE` clause of `claim_ready`. -/
def IndexOutboxRow.isReady (now : Time) (lease : Duration) (row : IndexOutboxRow) : Bool :=
  ((row.status == .pending || row.status == .retry) && decide (row.nextAttemptAt ≤ now)) ||
    (row.status == .processing &&
      row.claimedAt.any fun claimedAt => decide (claimedAt ≤ now - lease))

/-- `ORDER BY next_attempt_at, created_at`. -/
def IndexOutboxRow.claimedBefore (left right : IndexOutboxRow) : Bool :=
  decide (left.nextAttemptAt < right.nextAttemptAt) ||
    (left.nextAttemptAt == right.nextAttemptAt && decide (left.createdAt ≤ right.createdAt))

def readyRows (rows : List IndexOutboxRow) (now : Time) (lease : Duration) (limit : Nat) :
    List IndexOutboxRow :=
  ((rows.filter (IndexOutboxRow.isReady now lease)).insertionSort fun left right =>
    left.claimedBefore right).take limit

def IndexOutboxRow.claimedFor (now : Time) (row : IndexOutboxRow) : IndexOutboxRow :=
  { row with
    status := .processing
    claimedAt := some now
    attemptCount := row.attemptCount + 1
    updatedAt := now }

def IndexOutboxRow.job (row : IndexOutboxRow) : SearchIndexJob where
  id := row.id
  domainId := row.domainId
  attemptCount := row.attemptCount

/-- The claimed rows, whose update is committed even when a count does not fit
the `u8` it is read into. -/
def claimReady (db : Database) (now : Time) (lease : Duration) (limit : Nat) :
    Database × List IndexOutboxRow × Except SearchIndexRepositoryError (List SearchIndexJob) :=
  let ready := readyRows db.indexOutbox now lease limit
  if 2 ^ 63 ≤ limit || ready.any fun row => decide (2 ^ 15 ≤ row.attemptCount + 1) then
    (db, [], .error .unavailable)
  else
    let claimed := ready.map (IndexOutboxRow.claimedFor now)
    ({ db with
      indexOutbox := updateWhere (fun row => ready.any fun found => found.id == row.id)
        (IndexOutboxRow.claimedFor now) db.indexOutbox },
      claimed,
      if claimed.all fun row => decide (row.attemptCount < 256) then
        .ok (claimed.map IndexOutboxRow.job)
      else .error .unavailable)

end Claim

section Projection

structure SearchTechnologyProjection where
  slug : Text
  categorySlug : Text
  confidence : Nat
  lastObservedAt : Time
  deriving DecidableEq

/-- The first query of `projection`. -/
structure ProjectedDomain where
  canonicalDomain : Text
  lastCrawledAt : Option Time
  countryCode : Option Text
  deriving DecidableEq

structure SearchDomainProjection where
  domainId : Uuid
  domain : ProjectedDomain
  technologies : List SearchTechnologyProjection
  deriving DecidableEq

/-- The country of the latest capture that has one. -/
def latestCountry (db : Database) (domainId : Uuid) : Option Text :=
  let captures := (db.snapshots.filter fun snapshot => snapshot.domainId == domainId).flatMap
    fun snapshot => (db.countryObservations.filter fun observation =>
      observation.crawlSnapshotId == snapshot.id).map fun observation =>
        (snapshot.capturedAt, observation.countryCode)
  (captures.insertionSort fun left right => right.1 ≤ left.1).head?.map Prod.snd

def projectedDomain (db : Database) (domainId : Uuid) : Option ProjectedDomain := do
  let domain ← db.domainOf domainId
  let policy ← db.policyOf domainId
  if domain.isActive then
    some {
      canonicalDomain := domain.canonicalDomain
      lastCrawledAt := policy.lastSuccessfulCrawlAt
      countryCode := latestCountry db domainId }
  else none

/-- The second query of `projection`, a statement of its own. -/
def projectedTechnologies (collation : Collation) (db : Database) (domainId : Uuid) :
    List SearchTechnologyProjection :=
  (db.history.current.filterMap fun row => do
    let technology ← if row.domainId == domainId then
      db.catalogue.technologies.find? fun technology => technology.id == row.technologyId else none
    let category ← db.catalogue.joinCategory technology
    let detection ← db.history.detections.find? fun detection =>
      detection.id == row.currentDetectionId
    some {
      slug := technology.slug
      categorySlug := category.slug
      confidence := detection.confidence
      lastObservedAt := row.lastObservedAt : SearchTechnologyProjection }).insertionSort
    fun left right => collation.le left.slug right.slug

end Projection

section Finish

/-- `DELETE ... WHERE id = $1 AND status = 'processing'`. -/
def IndexOutboxRow.isHeldBy (job : SearchIndexJob) (row : IndexOutboxRow) : Bool :=
  row.id == job.id && row.status == .processing

def complete (db : Database) (job : SearchIndexJob) :
    Except SearchIndexRepositoryError Database :=
  if db.indexOutbox.any (IndexOutboxRow.isHeldBy job) then
    .ok { db with indexOutbox := db.indexOutbox.filter fun row => !row.isHeldBy job }
  else .error .unavailable

def IndexOutboxRow.failedTo (status : IndexStatus) (now nextAttemptAt : Time) (summary : Text)
    (row : IndexOutboxRow) : IndexOutboxRow :=
  { row with
    status := status
    nextAttemptAt := nextAttemptAt
    claimedAt := none
    lastError := some ((trim summary).take 1024)
    updatedAt := now }

def fail (db : Database) (job : SearchIndexJob) (now : Time) (retryAfter : Duration)
    (maxAttempts : Nat) (summary : Text) : Except SearchIndexRepositoryError Database :=
  let status := if maxAttempts ≤ job.attemptCount then .dead else .retry
  if db.indexOutbox.any (IndexOutboxRow.isHeldBy job) then
    .ok { db with
      indexOutbox := updateWhere (IndexOutboxRow.isHeldBy job)
        (IndexOutboxRow.failedTo status now (now + retryAfter) summary) db.indexOutbox }
  else .error .unavailable

end Finish

end TechAtlas.Store
