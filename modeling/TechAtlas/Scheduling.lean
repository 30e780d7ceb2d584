import TechAtlas.Library.Text

set_option autoImplicit false

/- Time, crawl cadence and the retry settings shared by the scheduler and the
workers. -/
namespace TechAtlas

open Library

/-- A 128-bit identifier, of which the store only uses equality and order. -/
abbrev Uuid := Nat

/-- Microseconds since the Unix epoch, the resolution of a `TIMESTAMPTZ` column. -/
abbrev Time := Int

/-- Microseconds. -/
abbrev Duration := Nat

def secondsOf (n : Nat) : Duration := n * 1000000

/-- The years -9999 to 9999 that `OffsetDateTime` can hold. -/
def offsetDateTimeInRange (t : Time) : Bool :=
  decide (-377705116800000000 ≤ t) && decide (t ≤ 253402300799999999)

/-- `OffsetDateTime::checked_add`. -/
def checkedAdd (t : Time) (d : Duration) : Option Time :=
  if offsetDateTimeInRange (t + d) then some (t + d) else none

/-- `OffsetDateTime::checked_sub`. -/
def checkedSub (t : Time) (d : Duration) : Option Time :=
  if offsetDateTimeInRange (t - d) then some (t - d) else none

theorem checkedAdd_eq_some {t result : Time} {d : Duration}
    (success : checkedAdd t d = some result) : result = t + d := by
  unfold checkedAdd at success
  split at success
  · exact (Option.some.inj success).symm
  · cases success

inductive CrawlPriority
  | high
  | medium
  | low
  deriving DecidableEq, Repr

def CrawlPriority.defaultInterval : CrawlPriority → Duration
  | .high => secondsOf (24 * 60 * 60)
  | .medium => secondsOf (7 * 24 * 60 * 60)
  | .low => secondsOf (30 * 24 * 60 * 60)

/-- The rank `reserve_due` sorts by. -/
def CrawlPriority.rank : CrawlPriority → Nat
  | .high => 0
  | .medium => 1
  | .low => 2

/-- `SchedulerSettings`: the limits are `u8`, and the delays and the publish
limit are positive, as the constructor checks. -/
structure SchedulerSettings where
  maxCrawlRetries : UInt8
  crawlRetryBase : Duration
  maxOutboxPublishAttempts : UInt8
  outboxRetryBase : Duration
  crawlRetryBase_pos : 0 < crawlRetryBase
  maxOutboxPublishAttempts_pos : 0 < maxOutboxPublishAttempts
  outboxRetryBase_pos : 0 < outboxRetryBase

inductive SchedulerSettingsError
  | crawlRetryBase
  | outboxPublishLimit
  | outboxRetryBase
  deriving DecidableEq, Repr

def SchedulerSettings.new (maxCrawlRetries : UInt8) (crawlRetryBase : Duration)
    (maxOutboxPublishAttempts : UInt8) (outboxRetryBase : Duration) :
    Except SchedulerSettingsError SchedulerSettings :=
  if crawlBase : crawlRetryBase = 0 then .error .crawlRetryBase
  else if publishLimit : maxOutboxPublishAttempts = 0 then .error .outboxPublishLimit
  else if outboxBase : outboxRetryBase = 0 then .error .outboxRetryBase
  else .ok {
    maxCrawlRetries := maxCrawlRetries
    crawlRetryBase := crawlRetryBase
    maxOutboxPublishAttempts := maxOutboxPublishAttempts
    outboxRetryBase := outboxRetryBase
    crawlRetryBase_pos := Nat.pos_of_ne_zero crawlBase
    maxOutboxPublishAttempts_pos := UInt8.pos_iff_ne_zero.mpr publishLimit
    outboxRetryBase_pos := Nat.pos_of_ne_zero outboxBase }

def SchedulerSettings.default : SchedulerSettings where
  maxCrawlRetries := 3
  crawlRetryBase := secondsOf (5 * 60)
  maxOutboxPublishAttempts := 5
  outboxRetryBase := secondsOf 5
  crawlRetryBase_pos := by decide
  maxOutboxPublishAttempts_pos := by decide
  outboxRetryBase_pos := by decide

/-- `std::time::Duration` counts whole seconds in a `u64`. -/
def durationMax : Duration := secondsOf (2 ^ 64) - 1

/-- `1_u32.checked_shl` fails from 32 on, `Duration::checked_mul` beyond its range. -/
def exponentialDelay (base : Duration) (number maximum : UInt8) : Option Duration :=
  if number = 0 ∨ maximum < number then none
  else if 32 ≤ number.toNat - 1 then none
  else if durationMax < base * 2 ^ (number.toNat - 1) then none
  else some (base * 2 ^ (number.toNat - 1))

def SchedulerSettings.crawlRetryDelay (settings : SchedulerSettings) (retryNumber : UInt8) :
    Option Duration :=
  exponentialDelay settings.crawlRetryBase retryNumber settings.maxCrawlRetries

def SchedulerSettings.outboxRetryDelay (settings : SchedulerSettings) (attemptNumber : UInt8) :
    Option Duration :=
  exponentialDelay settings.outboxRetryBase attemptNumber settings.maxOutboxPublishAttempts

/-- `crawl:{job_id}` for the jobs the scheduler makes; a message may carry any
other text. -/
inductive IdempotencyKey
  | crawl (jobId : Uuid)
  | other (text : Text)
  deriving DecidableEq, Repr

structure CrawlJobV1 where
  jobId : Uuid
  domainId : Uuid
  correlationId : Uuid
  idempotencyKey : IdempotencyKey
  deriving DecidableEq, Repr

def newJobWithCorrelation (domainId correlationId jobId : Uuid) : CrawlJobV1 where
  jobId := jobId
  domainId := domainId
  correlationId := correlationId
  idempotencyKey := .crawl jobId

/-- A failure code and summary as `CrawlFailure::new` lets them through. -/
structure CrawlFailure where
  code : Text
  summary : Text
  code_present : code ≠ []
  summary_present : summary ≠ []
  summary_bounded : utf8Length summary ≤ 1024

inductive CrawlFailureError
  | emptyCode
  | emptySummary
  | summaryTooLong
  deriving DecidableEq, Repr

def CrawlFailure.new (code summary : Text) : Except CrawlFailureError CrawlFailure :=
  if noCode : trim code = [] then .error .emptyCode
  else if noSummary : trim summary = [] then .error .emptySummary
  else if long : 1024 < utf8Length (trim summary) then .error .summaryTooLong
  else .ok {
    code := trim code
    summary := trim summary
    code_present := noCode
    summary_present := noSummary
    summary_bounded := Nat.le_of_not_lt long }

inductive CrawlAttemptOutcome
  | succeeded
  | failed (failure : CrawlFailure)

end TechAtlas
