import TechAtlas.Store.Statements

set_option autoImplicit false

/- The operator and public requests that move crawls: policy updates, manual
crawls and retries, recrawl batches and public refreshes. -/
namespace TechAtlas.Store

open Library

inductive AdminOperationError
  | notFound
  | conflict
  | validation
  | unavailable
  deriving DecidableEq, Repr

/-- The active domain of that name with its policy. -/
def Database.activePolicy (db : Database) (domain : CanonicalDomain) : Option PolicyRow :=
  (db.activeDomain domain.text).bind fun row => db.policyOf row.id

def PolicyRow.scheduledAt (now : Time) (policy : PolicyRow) : PolicyRow :=
  { policy with nextCrawlAt := some now, updatedAt := now }

def requestDomainCrawl (db : Database) (domain : CanonicalDomain) (actorSubject : Text)
    (now : Time) : Except AdminOperationError Database := do
  let policy ← orError (db.activePolicy domain) .notFound
  require policy.isEnabled .conflict
  let db ← orError (db.updatePolicy policy.domainId (PolicyRow.scheduledAt now)) .unavailable
  orError (db.audit {
    actorSubject := actorSubject
    action := "domain.crawl_requested"
    resourceKind := "domain"
    resourceId := policy.domainId }) .unavailable

section ManualRetry

/-- Failures that an operator may not retry. -/
def isUnretryable (code : Text) : Bool :=
  code == "unsafe_target".toList || code == "robots_denied".toList || code == "cancelled".toList

def PolicyRow.retriedAt (now : Time) (policy : PolicyRow) : PolicyRow :=
  { policy with terminalFailureAt := none, nextCrawlAt := some now, updatedAt := now }

def retryTerminalAttempt (db : Database) (jobId : Uuid) (actorSubject : Text) (now : Time)
    (fresh : FreshJob) : Except AdminOperationError Database := do
  let (attempt, policy) ← orError (db.attemptWithPolicy fun attempt =>
    attempt.jobId == jobId && (db.domainOf attempt.domainId).isSome) .notFound
  require (attempt.status == .failed && policy.terminalFailureAt.isSome &&
    !attempt.failureCode.any isUnretryable) .conflict
  -- `checked_add` on the `SMALLINT`
  require (decide (attempt.attemptNumber + 1 < 2 ^ 15)) .unavailable
  let job := newJobWithCorrelation attempt.domainId attempt.correlationId fresh.jobId
  let db ← orError (insertAttemptAndOutbox db fresh.attemptId job (attempt.attemptNumber + 1)
    now now) .unavailable
  let db ← orError (db.updatePolicy attempt.domainId (PolicyRow.retriedAt now)) .unavailable
  orError (db.audit {
    actorSubject := actorSubject
    action := "crawl_attempt.retry_requested"
    resourceKind := "crawl_attempt"
    resourceId := attempt.id }) .unavailable

/-- `has_later_attempt`. -/
def Database.hasLaterAttempt (db : Database) (attempt : AttemptRow) : Bool :=
  db.attempts.any fun later =>
    later.domainId == attempt.domainId && decide (attempt.queuedAt < later.queuedAt)

inductive AdminCrawlRetryState
  | inProgress
  | automaticRetryScheduled
  | manualRetryAvailable
  | manualRetryBlocked
  | notApplicable
  deriving DecidableEq, Repr

def retryState (status : AttemptStatus) (failureCode : Option Text)
    (terminalFailure hasLaterAttempt : Bool) : AdminCrawlRetryState :=
  match status with
  | .queued | .running => .inProgress
  | .failed =>
      if hasLaterAttempt || !terminalFailure then .automaticRetryScheduled
      else if failureCode.any isUnretryable then .manualRetryBlocked
      else .manualRetryAvailable
  | .cancelled => .manualRetryBlocked
  | .succeeded => .notApplicable

structure AdminCrawlAttempt where
  jobId : Uuid
  canonicalDomain : Text
  attemptNumber : Nat
  status : AttemptStatus
  queuedAt : Time
  finishedAt : Option Time
  failureCode : Option Text
  failureSummary : Option Text
  retryState : AdminCrawlRetryState
  retryEligible : Bool
  deriving DecidableEq, Repr

def rowToAttempt (attempt : AttemptRow) (domain : DomainRow) (policy : PolicyRow)
    (hasLaterAttempt : Bool) : AdminCrawlAttempt :=
  let state := retryState attempt.status attempt.failureCode policy.terminalFailureAt.isSome
    hasLaterAttempt
  { jobId := attempt.jobId
    canonicalDomain := domain.canonicalDomain
    attemptNumber := attempt.attemptNumber
    status := attempt.status
    queuedAt := attempt.queuedAt
    finishedAt := attempt.finishedAt
    failureCode := attempt.failureCode
    failureSummary := attempt.failureSummary
    retryState := state
    retryEligible := state == .manualRetryAvailable }

/-- The row of the listing for an attempt, joined with its domain and policy. -/
def Database.listedAttempt (db : Database) (attempt : AttemptRow) : Option AdminCrawlAttempt :=
  (db.domainOf attempt.domainId).bind fun domain =>
    (db.policyOf attempt.domainId).map fun policy =>
      rowToAttempt attempt domain policy (db.hasLaterAttempt attempt)

/-- `ORDER BY attempts.queued_at DESC LIMIT`. -/
def crawlAttempts (db : Database) (limit : Nat) :
    Except AdminOperationError (List AdminCrawlAttempt) :=
  if 2 ^ 63 ≤ limit then .error .validation
  else .ok (((db.attempts.filterMap db.listedAttempt).insertionSort fun left right =>
    decide (right.queuedAt ≤ left.queuedAt)).take limit)

end ManualRetry

section Recrawl

def Database.hasSnapshot (db : Database) (domainId : Uuid) : Bool :=
  db.snapshots.any fun snapshot => snapshot.domainId == domainId

def Database.hasCountry (db : Database) (domainId : Uuid) : Bool :=
  db.countryObservations.any fun observation => db.snapshots.any fun snapshot =>
    snapshot.id == observation.crawlSnapshotId && snapshot.domainId == domainId

def needsCountry (db : Database) (policy : PolicyRow) : Bool :=
  policy.isEnabled && db.hasSnapshot policy.domainId && !db.hasCountry policy.domainId &&
    !db.hasActiveAttempt policy.domainId

def scheduleCountryEnrichmentRecrawl (db : Database) (actorSubject : Text) (now : Time) :
    Except AdminOperationError (Database × Nat) := do
  let scheduled := db.policies.countP (needsCountry db)
  let db ← orError (db.updatePolicies (needsCountry db) (PolicyRow.scheduledAt now)) .unavailable
  let db ← orError (db.audit {
    actorSubject := actorSubject
    action := "country_enrichment.recrawl_requested"
    resourceKind := "country_enrichment"
    resourceId := 0 }) .unavailable
  .ok (db, scheduled)

def inImportBatch (db : Database) (importId : Uuid) (policy : PolicyRow) : Bool :=
  policy.isEnabled &&
    (db.importRows.any fun row => row.importId == importId && row.domainId == some policy.domainId &&
      db.domains.any fun domain => domain.id == policy.domainId && domain.isActive) &&
    !db.hasActiveAttempt policy.domainId

structure AdminImportBatchRecrawl where
  requestedDomainCount : Nat
  scheduledDomainCount : Nat
  skippedDomainCount : Nat
  deriving DecidableEq, Repr

/-- `COUNT(DISTINCT domain_id)`. -/
def requestedDomains (db : Database) (importId : Uuid) : Nat :=
  ((db.importRows.filter fun row => row.importId == importId).filterMap ImportRow.domainId).dedup.length

def scheduleImportBatchRecrawl (db : Database) (importId : Uuid) (actorSubject : Text)
    (now : Time) : Except AdminOperationError (Database × AdminImportBatchRecrawl) := do
  require (db.imports.any fun batch => batch.id == importId && batch.status == .completed &&
    db.sources.any fun source => source.id == batch.sourceId) .notFound
  let requested := requestedDomains db importId
  let scheduled := db.policies.countP (inImportBatch db importId)
  let db ← orError (db.updatePolicies (inImportBatch db importId) (PolicyRow.scheduledAt now))
    .unavailable
  require (decide (scheduled ≤ requested)) .unavailable
  let db ← orError (db.audit {
    actorSubject := actorSubject
    action := "import.recrawl_requested"
    resourceKind := "import"
    resourceId := importId }) .unavailable
  .ok (db, {
    requestedDomainCount := requested
    scheduledDomainCount := scheduled
    skippedDomainCount := requested - scheduled })

end Recrawl

section Policy

structure AdminCrawlPolicy where
  isEnabled : Bool
  priority : CrawlPriority
  desiredIntervalHours : UInt16
  deriving DecidableEq

def PolicyRow.updatedWith (policy : AdminCrawlPolicy) (now : Time) (row : PolicyRow) : PolicyRow :=
  { row with
    isEnabled := policy.isEnabled
    priority := policy.priority
    desiredInterval := secondsOf (policy.desiredIntervalHours.toNat * 60 * 60)
    updatedAt := now }

def updatePolicy (db : Database) (domain : CanonicalDomain) (policy : AdminCrawlPolicy)
    (actorSubject : Text) (now : Time) : Except AdminOperationError Database := do
  let row ← orError (db.activeDomain domain.text) .notFound
  let db ← orError (db.updatePolicy row.id (PolicyRow.updatedWith policy now)) .unavailable
  orError (db.audit {
    actorSubject := actorSubject
    action := "domain.policy_updated"
    resourceKind := "domain"
    resourceId := row.id }) .unavailable

end Policy

section PublicRefresh

inductive PublicRefreshError
  | notFound
  | disabled
  | rateLimited (retryAfterSeconds : Nat)
  | unavailable
  deriving DecidableEq, Repr

structure PublicRefreshRequest where
  acceptedAt : Time
  nextAllowedAt : Time
  deriving DecidableEq, Repr

/-- `ORDER BY requested_at DESC LIMIT 1`. -/
def lastRequestedAt (db : Database) (domainId : Uuid) : Option Time :=
  ((db.refreshRequests.filter fun row => row.domainId == domainId).map
    RefreshRequestRow.requestedAt).max?

/-- The cooldown check against the latest request. -/
def checkCooldown (last : Option Time) (requestedAt : Time) (cooldown : Duration) :
    Except PublicRefreshError Unit :=
  match last with
  | none => .ok ()
  | some last =>
      match checkedAdd last cooldown with
      | none => .error .unavailable
      | some next =>
          if requestedAt < next then
            .error (.rateLimited (max ((next - requestedAt).toNat / 1000000) 1))
          else .ok ()

def PolicyRow.refreshedAt (requestedAt : Time) (policy : PolicyRow) : PolicyRow :=
  { policy with
    nextCrawlAt := some (max requestedAt policy.createdAt)
    terminalFailureAt := none
    updatedAt := requestedAt }

def requestRefresh (db : Database) (domain : CanonicalDomain) (requestedAt : Time)
    (cooldown : Duration) : Except PublicRefreshError (Database × PublicRefreshRequest) := do
  let nextAllowedAt ← orError (checkedAdd requestedAt cooldown) .unavailable
  let policy ← orError (db.activePolicy domain) .notFound
  require policy.isEnabled .disabled
  checkCooldown (lastRequestedAt db policy.domainId) requestedAt cooldown
  let request : RefreshRequestRow := { domainId := policy.domainId, requestedAt := requestedAt }
  let db := { db with refreshRequests := db.refreshRequests ++ [request] }
  let db ← orError (db.updatePolicy policy.domainId (PolicyRow.refreshedAt requestedAt))
    .unavailable
  .ok (db, { acceptedAt := requestedAt, nextAllowedAt := nextAllowedAt })

end PublicRefresh

end TechAtlas.Store
