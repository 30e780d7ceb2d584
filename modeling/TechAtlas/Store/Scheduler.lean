import TechAtlas.Store.Statements

set_option autoImplicit false

/- `PostgresCrawlScheduleRepository`: reserving due domains, recording outcomes
and publishing the job outbox. -/
namespace TechAtlas.Store

open Library

inductive SchedulerRepositoryError
  | notFound
  | unavailable
  deriving DecidableEq, Repr

section Rows

def AttemptRow.succeededAt (now : Time) (attempt : AttemptRow) : AttemptRow :=
  { attempt with
    status := .succeeded
    startedAt := some (attempt.startedAt.getD now)
    finishedAt := some now }

def AttemptRow.failedAt (now : Time) (failure : CrawlFailure) (attempt : AttemptRow) :
    AttemptRow :=
  { attempt with
    status := .failed
    startedAt := some (attempt.startedAt.getD now)
    finishedAt := some now
    failureCode := some failure.code
    failureSummary := some failure.summary }

def PolicyRow.reservedAt (now : Time) (policy : PolicyRow) : PolicyRow :=
  { policy with
    nextCrawlAt := some (now + policy.desiredInterval)
    terminalFailureAt := none
    updatedAt := now }

/-- The update of both success paths. -/
def PolicyRow.succeededAt (now : Time) (policy : PolicyRow) : PolicyRow :=
  { policy with
    lastCrawlAt := some now
    lastSuccessfulCrawlAt := some now
    nextCrawlAt := some (now + policy.desiredInterval)
    consecutiveFailureCount := 0
    lastFailureAt := none
    terminalFailureAt := none
    updatedAt := now }

def PolicyRow.retryingAt (now retryAt : Time) (policy : PolicyRow) : PolicyRow :=
  { policy with
    lastCrawlAt := some now
    nextCrawlAt := some retryAt
    consecutiveFailureCount := policy.consecutiveFailureCount + 1
    lastFailureAt := some now
    updatedAt := now }

def PolicyRow.gaveUpAt (now : Time) (policy : PolicyRow) : PolicyRow :=
  { policy with
    lastCrawlAt := some now
    nextCrawlAt := some (now + policy.desiredInterval)
    consecutiveFailureCount := policy.consecutiveFailureCount + 1
    lastFailureAt := some now
    terminalFailureAt := some now
    updatedAt := now }

end Rows

section Reserve

/-- The `WHERE` clause of `reserve_due`. -/
def isDue (db : Database) (now : Time) (policy : PolicyRow) : Bool :=
  (db.domains.any fun domain => domain.id == policy.domainId && domain.isActive) &&
    policy.isEnabled && policy.nextCrawlAt.all (fun next => decide (next ≤ now)) &&
    !db.hasActiveAttempt policy.domainId

/-- `NULLS FIRST`, then ascending. -/
def nullsFirst : Option Time → Option Time → Bool
  | none, _ => true
  | some _, none => false
  | some left, some right => decide (left ≤ right)

/-- The `ORDER BY` of `reserve_due`. -/
def PolicyRow.dueBefore (left right : PolicyRow) : Bool :=
  decide (left.priority.rank < right.priority.rank) ||
    (left.priority == right.priority &&
      (!nullsFirst right.nextCrawlAt left.nextCrawlAt ||
        (left.nextCrawlAt == right.nextCrawlAt && decide (left.domainId ≤ right.domainId))))

def dueDomains (db : Database) (now : Time) (limit : Nat) : List Uuid :=
  (((db.policies.filter (isDue db now)).insertionSort fun left right =>
    left.dueBefore right).take limit).map PolicyRow.domainId

/-- One round of the loop in `reserve_due`. -/
def reserveDomain (db : Database) (now : Time) (fresh : FreshJob) (domainId : Uuid) :
    Except SchedulerRepositoryError (Database × CrawlJobV1) := do
  let job := newJobWithCorrelation domainId fresh.correlationId fresh.jobId
  let db ← orError (insertAttemptAndOutbox db fresh.attemptId job 1 now now) .unavailable
  let db ← orError (db.updatePolicy domainId (PolicyRow.reservedAt now)) .unavailable
  .ok (db, job)

def reserveDomains (now : Time) (fresh : Uuid → FreshJob) :
    Database → List Uuid → Except SchedulerRepositoryError (Database × List CrawlJobV1)
  | db, [] => .ok (db, [])
  | db, domainId :: rest => do
      let (db, job) ← reserveDomain db now (fresh domainId) domainId
      let (db, jobs) ← reserveDomains now fresh db rest
      .ok (db, job :: jobs)

/-- `fresh` is what `Uuid::new_v4` returns for each reserved domain. -/
def reserveDue (db : Database) (now : Time) (limit : Nat) (fresh : Uuid → FreshJob) :
    Except SchedulerRepositoryError (Database × List CrawlJobV1) :=
  if limit = 0 then .ok (db, [])
  else if 2 ^ 63 ≤ limit then .error .unavailable
  else reserveDomains now fresh db (dueDomains db now limit)

end Reserve

section Outcome

/-- The `Failed` branch of `record_attempt_outcome`. -/
def recordFailed (db : Database) (attempt : AttemptRow) (failure : CrawlFailure) (now : Time)
    (settings : SchedulerSettings) (fresh : FreshJob) :
    Except SchedulerRepositoryError Database := do
  let db ← orError (db.updateAttempt attempt.id (AttemptRow.failedAt now failure)) .unavailable
  require (decide (attempt.attemptNumber < 256)) .unavailable
  if attempt.attemptNumber ≤ settings.maxCrawlRetries.toNat then
    let delay ← orError (settings.crawlRetryDelay (UInt8.ofNat attempt.attemptNumber)) .unavailable
    let retryAt ← orError (checkedAdd now delay) .unavailable
    let retry := newJobWithCorrelation attempt.domainId attempt.correlationId fresh.jobId
    let db ← orError (insertAttemptAndOutbox db fresh.attemptId retry (attempt.attemptNumber + 1)
      retryAt now) .unavailable
    orError (db.updatePolicy attempt.domainId (PolicyRow.retryingAt now retryAt)) .unavailable
  else
    orError (db.updatePolicy attempt.domainId (PolicyRow.gaveUpAt now)) .unavailable

/-- The `Succeeded` branch of `record_attempt_outcome`. -/
def recordSucceeded (db : Database) (attempt : AttemptRow) (now : Time) :
    Except SchedulerRepositoryError Database := do
  let db ← orError (db.updateAttempt attempt.id (AttemptRow.succeededAt now)) .unavailable
  orError (db.updatePolicy attempt.domainId (PolicyRow.succeededAt now)) .unavailable

def recordAttemptOutcome (db : Database) (jobId : Uuid) (outcome : CrawlAttemptOutcome)
    (now : Time) (settings : SchedulerSettings) (fresh : FreshJob) :
    Except SchedulerRepositoryError Database := do
  let (attempt, _) ← orError (db.attemptWithPolicy fun attempt => attempt.jobId == jobId) .notFound
  if attempt.status.isTerminal then .ok db
  else
    match outcome with
    | .succeeded => recordSucceeded db attempt now
    | .failed failure => recordFailed db attempt failure now settings fresh

end Outcome

section Recovery

def leaseExpired : CrawlFailure where
  code := "worker_lease_expired".toList
  summary := "Worker did not record an outcome before its crawl lease expired".toList
  code_present := by decide
  summary_present := by decide
  summary_bounded := by decide

def isStale (staleBefore : Time) (attempt : AttemptRow) : Bool :=
  attempt.status == .running && attempt.startedAt.any fun started => decide (started ≤ staleBefore)

/-- `ORDER BY started_at ASC, id ASC`. -/
def AttemptRow.startedBefore (left right : AttemptRow) : Bool :=
  !nullsFirst right.startedAt left.startedAt ||
    (left.startedAt == right.startedAt && decide (left.id ≤ right.id))

def staleJobIds (db : Database) (staleBefore : Time) (limit : Nat) : List Uuid :=
  (((db.attempts.filter (isStale staleBefore)).insertionSort fun left right =>
    left.startedBefore right).take limit).map AttemptRow.jobId

/-- Each outcome is a transaction of its own; the first error ends the pass. -/
def recoverEach (now : Time) (settings : SchedulerSettings) (fresh : Uuid → FreshJob) :
    Database → List Uuid → Database × Except SchedulerRepositoryError Unit
  | db, [] => (db, .ok ())
  | db, jobId :: rest =>
      match recordAttemptOutcome db jobId (.failed leaseExpired) now settings (fresh jobId) with
      | .ok db => recoverEach now settings fresh db rest
      | .error reason => (db, .error reason)

def recoverStaleAttempts (db : Database) (now : Time) (staleAfter : Duration) (limit : Nat)
    (settings : SchedulerSettings) (fresh : Uuid → FreshJob) :
    Database × Except SchedulerRepositoryError Nat :=
  if limit = 0 then (db, .ok 0)
  else
    match checkedSub now staleAfter with
    | none => (db, .error .unavailable)
    | some staleBefore =>
        if 2 ^ 63 ≤ limit then (db, .error .unavailable)
        else
          let stale := staleJobIds db staleBefore limit
          match recoverEach now settings fresh db stale with
          | (db, .ok _) => (db, .ok stale.length)
          | (db, .error reason) => (db, .error reason)

end Recovery

section Publication

def isPublishable (now : Time) (row : OutboxRow) : Bool :=
  row.isPending && decide (row.availableAt ≤ now) && decide (row.nextPublishAt ≤ now)

/-- `ORDER BY available_at ASC, created_at ASC`. -/
def OutboxRow.publishBefore (left right : OutboxRow) : Bool :=
  decide (left.availableAt < right.availableAt) ||
    (left.availableAt == right.availableAt && decide (left.createdAt ≤ right.createdAt))

def OutboxRow.job (row : OutboxRow) : CrawlJobV1 where
  jobId := row.jobId
  domainId := row.domainId
  correlationId := row.correlationId
  idempotencyKey := row.idempotencyKey

structure PendingCrawlJob where
  job : CrawlJobV1
  availableAt : Time
  publishAttemptCount : Nat
  deriving DecidableEq, Repr

def rowToPendingJob (row : OutboxRow) : Except SchedulerRepositoryError PendingCrawlJob :=
  if row.publishAttemptCount < 256 then
    .ok {
      job := row.job
      availableAt := row.availableAt
      publishAttemptCount := row.publishAttemptCount }
  else .error .unavailable

def pendingPublications (db : Database) (now : Time) (limit : Nat) :
    Except SchedulerRepositoryError (List PendingCrawlJob) :=
  if limit = 0 then .ok []
  else if 2 ^ 63 ≤ limit then .error .unavailable
  else
    (((db.outbox.filter (isPublishable now)).insertionSort fun left right =>
      left.publishBefore right).take limit).mapM rowToPendingJob

def Database.updateOutbox (db : Database) (selected : OutboxRow → Bool)
    (change : OutboxRow → OutboxRow) : Option Database :=
  (updateChecked selected (fun _ => true) OutboxRow.valid change db.outbox).map fun outbox =>
    { db with outbox := outbox }

def OutboxRow.publishedAtTime (now : Time) (row : OutboxRow) : OutboxRow :=
  { row with publishedAt := some now, updatedAt := now }

def markPublished (db : Database) (jobId : Uuid) (now : Time) :
    Except SchedulerRepositoryError Database :=
  let selected := fun row : OutboxRow => row.jobId == jobId && row.isPending
  if db.outbox.any selected then
    orError (db.updateOutbox selected (OutboxRow.publishedAtTime now)) .unavailable
  else .error .notFound

def OutboxRow.abandonedAt (now : Time) (row : OutboxRow) : OutboxRow :=
  { row with
    publishAttemptCount := row.publishAttemptCount + 1
    terminalFailureAt := some now
    lastErrorSummary := some "Redis publication failed".toList
    updatedAt := now }

def OutboxRow.postponedTo (now nextPublishAt : Time) (row : OutboxRow) : OutboxRow :=
  { row with
    publishAttemptCount := row.publishAttemptCount + 1
    nextPublishAt := nextPublishAt
    lastErrorSummary := some "Redis publication failed".toList
    updatedAt := now }

def recordPublishFailure (db : Database) (jobId : Uuid) (now : Time)
    (settings : SchedulerSettings) : Except SchedulerRepositoryError Database := do
  let row ← orError (db.outbox.find? fun row => row.jobId == jobId) .notFound
  if !row.isPending then .ok db
  else
    let next := row.publishAttemptCount + 1
    require (decide (next < 256)) .unavailable
    if settings.maxOutboxPublishAttempts.toNat ≤ next then
      orError (db.updateOutbox (fun row => row.jobId == jobId) (OutboxRow.abandonedAt now))
        .unavailable
    else
      let delay ← orError (settings.outboxRetryDelay (UInt8.ofNat next)) .unavailable
      let nextPublishAt ← orError (checkedAdd now delay) .unavailable
      orError (db.updateOutbox (fun row => row.jobId == jobId)
        (OutboxRow.postponedTo now nextPublishAt)) .unavailable

end Publication

end TechAtlas.Store
