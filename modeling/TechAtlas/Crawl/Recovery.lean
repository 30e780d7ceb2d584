import TechAtlas.Store.Rows
import TechAtlas.Crawl.ActiveAttempts
import TechAtlas.Crawl.Outcomes

set_option autoImplicit false

/- When a failed outcome can be recorded. The transaction narrows the attempt
number to a `u8`, shifts by it and adds the delay to the clock, and a recovery
pass ends at the first attempt for which one of these fails. -/
namespace TechAtlas.Crawl

open Library Store

variable {db next : Database} {now : Time} {settings : SchedulerSettings}

/-- The policies of the store lie in the past and its next crawls in range. -/
structure Clock (db : Database) (now : Time) : Prop where
  present : timestampInRange now = true
  created : ∀ policy ∈ db.policies, policy.createdAt ≤ now
  next : ∀ policy ∈ db.policies, timestampInRange (now + policy.desiredInterval) = true

instance (db : Database) (now : Time) : Decidable (Clock db now) :=
  decidable_of_iff
    (timestampInRange now = true ∧
      (∀ policy ∈ db.policies, policy.createdAt ≤ now) ∧
      ∀ policy ∈ db.policies, timestampInRange (now + policy.desiredInterval) = true)
    ⟨fun all => ⟨all.1, all.2.1, all.2.2⟩,
      fun clock => ⟨clock.present, clock.created, clock.next⟩⟩

/-- Identifiers that `Uuid::new_v4` has not drawn before. -/
structure Unused (db : Database) (fresh : FreshJob) : Prop where
  attempts : ∀ row ∈ db.attempts,
    row.id ≠ fresh.attemptId ∧ row.idempotencyKey ≠ .crawl fresh.jobId
  outbox : ∀ row ∈ db.outbox, row.crawlAttemptId ≠ fresh.attemptId ∧
    row.jobId ≠ fresh.jobId ∧ row.idempotencyKey ≠ .crawl fresh.jobId

instance (db : Database) (fresh : FreshJob) : Decidable (Unused db fresh) :=
  decidable_of_iff
    ((∀ row ∈ db.attempts, row.id ≠ fresh.attemptId ∧ row.idempotencyKey ≠ .crawl fresh.jobId) ∧
      ∀ row ∈ db.outbox, row.crawlAttemptId ≠ fresh.attemptId ∧ row.jobId ≠ fresh.jobId ∧
        row.idempotencyKey ≠ .crawl fresh.jobId)
    ⟨fun both => ⟨both.1, both.2⟩, fun unused => ⟨unused.attempts, unused.outbox⟩⟩

/-- The data a failed outcome can be recorded for: an attempt that has started, or was
due where it has not, with a number that fits a `u8`, a failure count that fits an `INTEGER` and, while it
has retries left, a delay that shifts, multiplies and adds without overflow. -/
structure Reportable (settings : SchedulerSettings) (now : Time) (attempt : AttemptRow)
    (policy : PolicyRow) : Prop where
  due : attempt.startedAt.getD attempt.queuedAt ≤ now
  number : attempt.attemptNumber < 256
  failures : policy.consecutiveFailureCount + 1 < 2 ^ 31
  delay : attempt.attemptNumber ≤ settings.maxCrawlRetries.toNat →
    attempt.attemptNumber ≤ 32 ∧
      settings.crawlRetryBase * 2 ^ (attempt.attemptNumber - 1) ≤ durationMax ∧
      offsetDateTimeInRange
        (now + (settings.crawlRetryBase * 2 ^ (attempt.attemptNumber - 1) : Nat)) = true

instance (settings : SchedulerSettings) (now : Time) (attempt : AttemptRow) (policy : PolicyRow) :
    Decidable (Reportable settings now attempt policy) :=
  decidable_of_iff
    (attempt.startedAt.getD attempt.queuedAt ≤ now ∧ attempt.attemptNumber < 256 ∧
      policy.consecutiveFailureCount + 1 < 2 ^ 31 ∧
      (attempt.attemptNumber ≤ settings.maxCrawlRetries.toNat →
        attempt.attemptNumber ≤ 32 ∧
          settings.crawlRetryBase * 2 ^ (attempt.attemptNumber - 1) ≤ durationMax ∧
          offsetDateTimeInRange
            (now + (settings.crawlRetryBase * 2 ^ (attempt.attemptNumber - 1) : Nat)) = true))
    ⟨fun all => ⟨all.1, all.2.1, all.2.2.1, all.2.2.2⟩,
      fun all => ⟨all.due, all.number, all.failures, all.delay⟩⟩

section Rows

variable {attempt : AttemptRow} {policy : PolicyRow} {failure : CrawlFailure}

/-- A row that satisfied its constraints fails them at its end only if it was to
start later. -/
theorem failedAt_valid_iff (valid : attempt.valid = true) :
    (attempt.failedAt now failure).valid = true ↔
      attempt.startedAt.getD attempt.queuedAt ≤ now := by
  have short : failure.summary.length ≤ 1024 :=
    (length_le_utf8Length failure.summary).trans failure.summary_bounded
  simp only [AttemptRow.valid, Bool.and_eq_true, decide_eq_true_eq] at valid
  obtain ⟨⟨⟨⟨⟨⟨positive, fits⟩, created⟩, queued⟩, _⟩, _⟩, _⟩ := valid
  have fits : attempt.attemptNumber < 32768 := by omega
  cases begun : attempt.startedAt with
  | none =>
      simp [AttemptRow.valid, AttemptRow.failedAt, AttemptRow.finishValid,
        AttemptRow.lifecycleValid, begun, notBefore, short, positive, fits, created]
  | some started =>
      simp only [begun, notBefore, decide_eq_true_eq] at queued
      simp [AttemptRow.valid, AttemptRow.failedAt, AttemptRow.finishValid,
        AttemptRow.lifecycleValid, begun, notBefore, short, positive, fits, created, queued]

theorem notBefore_some (floor t : Time) : notBefore floor (some t) = decide (floor ≤ t) := rfl

theorem retryingAt_valid_iff {retryAt : Time} (valid : policy.valid = true)
    (created : policy.createdAt ≤ now) (later : now ≤ retryAt)
    (inRange : timestampInRange retryAt = true) :
    (policy.retryingAt now retryAt).valid = true ↔
      policy.consecutiveFailureCount + 1 < 2 ^ 31 := by
  have scheduled : policy.createdAt ≤ retryAt := created.trans later
  simp only [PolicyRow.valid, Bool.and_eq_true, decide_eq_true_eq] at valid
  simp only [PolicyRow.valid, PolicyRow.retryingAt, notBefore_some, Option.all_some, Bool.and_eq_true,
    decide_eq_true_eq, created, scheduled, inRange, valid, and_true, true_and]
  exact decide_eq_true_iff

theorem gaveUpAt_valid_iff (valid : policy.valid = true) (created : policy.createdAt ≤ now)
    (inRange : timestampInRange (now + policy.desiredInterval) = true) :
    (policy.gaveUpAt now).valid = true ↔ policy.consecutiveFailureCount + 1 < 2 ^ 31 := by
  have scheduled : policy.createdAt ≤ now + policy.desiredInterval :=
    created.trans (Int.le_add_of_nonneg_right (Int.natCast_nonneg _))
  simp only [PolicyRow.valid, Bool.and_eq_true, decide_eq_true_eq] at valid
  simp only [PolicyRow.valid, PolicyRow.gaveUpAt, notBefore_some, Option.all_some, Bool.and_eq_true,
    decide_eq_true_eq, created, scheduled, inRange, valid, and_true, true_and]
  exact decide_eq_true_iff

/-- Numbers that fit are admitted to the tables under unused identifiers. -/
theorem admits_retry (job : CrawlJobV1) {attempts : List AttemptRow} {outbox : List OutboxRow}
    {fresh : FreshJob} {number : Nat} {retryAt : Time} (fits : number < 256)
    (later : now ≤ retryAt) (key : job.idempotencyKey = .crawl fresh.jobId)
    (sameJob : job.jobId = fresh.jobId)
    (unusedAttempt : ∀ row ∈ attempts,
      row.id ≠ fresh.attemptId ∧ row.idempotencyKey ≠ .crawl fresh.jobId)
    (unusedOutbox : ∀ row ∈ outbox, row.crawlAttemptId ≠ fresh.attemptId ∧
      row.jobId ≠ fresh.jobId ∧ row.idempotencyKey ≠ .crawl fresh.jobId) :
    admitsAttempt attempts (queuedAttempt fresh.attemptId job (number + 1) retryAt now) = true ∧
      admitsOutbox outbox (unpublished fresh.attemptId job retryAt now) = true := by
  have narrow : number + 1 < 32768 := by omega
  constructor
  · simp only [admitsAttempt, Bool.and_eq_true, List.all_eq_true, bne_iff_ne, queuedAttempt, key]
    refine ⟨?_, unusedAttempt⟩
    simp [AttemptRow.valid, AttemptRow.finishValid, AttemptRow.lifecycleValid, notBefore, later,
      narrow]
  · simp only [admitsOutbox, Bool.and_eq_true, List.all_eq_true, bne_iff_ne, unpublished, key,
      sameJob, and_assoc]
    refine ⟨?_, unusedOutbox⟩
    simp [OutboxRow.valid, notBefore, later]

end Rows

section Outcome

variable {attempt : AttemptRow} {policy : PolicyRow} {failure : CrawlFailure} {fresh : FreshJob}

/-- The delay of a retry that is still allowed. -/
theorem crawlRetryDelay_eq_some {number : Nat} {delay : Duration} (positive : 0 < number)
    (fits : number < 256) (allowed : number ≤ settings.maxCrawlRetries.toNat) :
    settings.crawlRetryDelay (UInt8.ofNat number) = some delay ↔
      number ≤ 32 ∧ settings.crawlRetryBase * 2 ^ (number - 1) ≤ durationMax ∧
        delay = settings.crawlRetryBase * 2 ^ (number - 1) := by
  have narrowed : (UInt8.ofNat number).toNat = number := by
    rw [UInt8.toNat_ofNat']
    exact Nat.mod_eq_of_lt fits
  have usable : ¬ (UInt8.ofNat number = 0 ∨ settings.maxCrawlRetries < UInt8.ofNat number) := by
    rw [UInt8.lt_iff_toNat_lt, ← UInt8.toNat_inj, narrowed]
    simp only [UInt8.toNat_zero]
    omega
  simp only [SchedulerSettings.crawlRetryDelay, exponentialDelay, if_neg usable, narrowed]
  by_cases shifts : 32 ≤ number - 1
  · rw [if_pos shifts]
    constructor
    · intro same
      cases same
    · intro small
      omega
  · rw [if_neg shifts]
    by_cases large : durationMax < settings.crawlRetryBase * 2 ^ (number - 1)
    · rw [if_pos large]
      constructor
      · intro same
        cases same
      · intro small
        exact absurd large (Nat.not_lt.mpr small.2.1)
    · rw [if_neg large, Option.some.injEq]
      constructor
      · intro same
        exact ⟨by omega, Nat.not_lt.mp large, same.symm⟩
      · intro small
        exact small.2.2.symm

theorem checkedAdd_eq_some_iff {t result : Time} {d : Duration} :
    checkedAdd t d = some result ↔ offsetDateTimeInRange (t + d) = true ∧ result = t + d := by
  unfold checkedAdd
  by_cases inRange : offsetDateTimeInRange (t + d) = true
  · rw [if_pos inRange, Option.some.injEq]
    constructor
    · intro same
      exact ⟨inRange, same.symm⟩
    · intro both
      exact both.2.symm
  · rw [if_neg inRange]
    constructor
    · intro same
      cases same
    · intro both
      exact absurd both.1 inRange

/-- A retry that `OffsetDateTime` can hold is a time the column can hold. -/
theorem timestampInRange_retry {delay : Duration} (present : timestampInRange now = true)
    (inRange : offsetDateTimeInRange (now + delay) = true) :
    timestampInRange (now + delay) = true := by
  have later : now ≤ now + (delay : Int) := Int.le_add_of_nonneg_right (Int.natCast_nonneg _)
  simp only [timestampInRange, offsetDateTimeInRange, Bool.and_eq_true, decide_eq_true_eq]
    at present inRange ⊢
  exact ⟨present.1.trans later, inRange.2.trans_lt (by decide)⟩

/-- The one policy an update of its domain rewrites. -/
theorem updatePolicy_valid_iff {change : PolicyRow → PolicyRow} (keys : Keys db)
    (inPolicies : policy ∈ db.policies) :
    (∀ row ∈ db.policies, (row.domainId == policy.domainId) = true → (change row).valid = true) ↔
      (change policy).valid = true := by
  constructor
  · intro all
    exact all policy inPolicies (beq_self_eq_true _)
  · intro here row member same
    rw [eq_of_key_eq keys.policyKeys member inPolicies (beq_iff_eq.mp same)]
    exact here

theorem attemptNumber_pos (valid : RowsValid db) (member : attempt ∈ db.attempts) :
    0 < attempt.attemptNumber := by
  have row := valid.attempts attempt member
  simp only [AttemptRow.valid, Bool.and_eq_true, decide_eq_true_eq] at row
  exact row.1.1.1.1.1.1

theorem recordFailed_reportable (keys : Keys db) (valid : RowsValid db) (clock : Clock db now)
    (member : attempt ∈ db.attempts) (inPolicies : policy ∈ db.policies)
    (sameDomain : policy.domainId = attempt.domainId)
    (success : recordFailed db attempt failure now settings fresh = .ok next) :
    Reportable settings now attempt policy := by
  simp only [recordFailed, bind_eq_ok, orError_eq_ok, require_eq_ok, updateAttempt_eq_some,
    decide_eq_true_eq] at success
  obtain ⟨_, ⟨checked, rfl⟩, _, number, branch⟩ := success
  have ended := (checked attempt member rfl).2
  have due := (failedAt_valid_iff (valid.attempts attempt member)).mp ended
  have created := clock.created policy inPolicies
  have row := valid.policies policy inPolicies
  split at branch
  · rename_i allowed
    simp only [bind_eq_ok, orError_eq_ok, Database.updatePolicy, insertAttemptAndOutbox_eq_some,
      updatePolicies_eq_some, checkedAdd_eq_some_iff,
      crawlRetryDelay_eq_some (attemptNumber_pos valid member) number allowed] at branch
    obtain ⟨delay, ⟨shifts, multiplies, rfl⟩, _, ⟨inRange, rfl⟩, _, ⟨_, _, rfl⟩, rewritten, _⟩ :=
      branch
    rw [← sameDomain, updatePolicy_valid_iff keys inPolicies] at rewritten
    have later : now ≤ now +
        ((settings.crawlRetryBase * 2 ^ (attempt.attemptNumber - 1) : Nat) : Int) :=
      Int.le_add_of_nonneg_right (Int.natCast_nonneg _)
    have failures := (retryingAt_valid_iff row created later
      (timestampInRange_retry clock.present inRange)).mp rewritten
    exact ⟨due, number, failures, fun _ => ⟨shifts, multiplies, inRange⟩⟩
  · rename_i exhausted
    simp only [orError_eq_ok, Database.updatePolicy, updatePolicies_eq_some] at branch
    have rewritten := branch.1
    rw [← sameDomain, updatePolicy_valid_iff keys inPolicies] at rewritten
    have failures := (gaveUpAt_valid_iff row created (clock.next policy inPolicies)).mp rewritten
    exact ⟨due, number, failures, fun allowed => absurd allowed exhausted⟩

theorem recordFailed_of_reportable (failure : CrawlFailure) (keys : Keys db) (valid : RowsValid db)
    (clock : Clock db now) (member : attempt ∈ db.attempts) (inPolicies : policy ∈ db.policies)
    (sameDomain : policy.domainId = attempt.domainId)
    (unresolved : attempt.status.isTerminal = false) (unused : Unused db fresh)
    (reportable : Reportable settings now attempt policy) :
    ∃ next, recordFailed db attempt failure now settings fresh = .ok next := by
  have created := clock.created policy inPolicies
  have row := valid.policies policy inPolicies
  have ended : ∀ other ∈ db.attempts, other.id = attempt.id → other.status.isTerminal = false ∧
      (other.failedAt now failure).valid = true := by
    intro other inTable same
    rw [keys.attempt_eq inTable member same]
    exact ⟨unresolved, (failedAt_valid_iff (valid.attempts attempt member)).mpr reportable.due⟩
  have closed := updateAttempt_eq_some.mpr ⟨ended, rfl⟩
  unfold recordFailed
  refine exists_bind_ok (orError_eq_ok.mpr closed) ?_
  refine exists_bind_ok (b := ()) (require_eq_ok.mpr (decide_eq_true reportable.number)) ?_
  by_cases allowed : attempt.attemptNumber ≤ settings.maxCrawlRetries.toNat
  · obtain ⟨shifts, multiplies, inRange⟩ := reportable.delay allowed
    have later : now ≤ now +
        ((settings.crawlRetryBase * 2 ^ (attempt.attemptNumber - 1) : Nat) : Int) :=
      Int.le_add_of_nonneg_right (Int.natCast_nonneg _)
    have delayed := (crawlRetryDelay_eq_some (attemptNumber_pos valid member) reportable.number
      allowed).mpr ⟨shifts, multiplies, rfl⟩
    have rewritten := (retryingAt_valid_iff row created later
      (timestampInRange_retry clock.present inRange)).mpr reportable.failures
    rw [← updatePolicy_valid_iff keys inPolicies, sameDomain] at rewritten
    have stillUnused : ∀ other ∈ updateWhere (fun row => row.id == attempt.id)
        (AttemptRow.failedAt now failure) db.attempts,
        other.id ≠ fresh.attemptId ∧ other.idempotencyKey ≠ .crawl fresh.jobId := by
      intro other inTable
      rcases mem_updateWhere_cases inTable with ⟨old, _⟩ | ⟨old, inOld, _, rfl⟩
      · exact unused.attempts other old
      · exact unused.attempts old inOld
    obtain ⟨admitted, posted⟩ := admits_retry
      (newJobWithCorrelation attempt.domainId attempt.correlationId fresh.jobId)
      reportable.number later rfl rfl stillUnused unused.outbox
    rw [if_pos allowed]
    refine exists_bind_ok (orError_eq_ok.mpr delayed) ?_
    refine exists_bind_ok (orError_eq_ok.mpr (checkedAdd_eq_some_iff.mpr ⟨inRange, rfl⟩)) ?_
    refine exists_bind_ok (orError_eq_ok.mpr
      (insertAttemptAndOutbox_eq_some.mpr ⟨admitted, posted, rfl⟩)) ?_
    exact ⟨_, orError_eq_ok.mpr (updatePolicies_eq_some.mpr ⟨rewritten, rfl⟩)⟩
  · have rewritten := (gaveUpAt_valid_iff row created (clock.next policy inPolicies)).mpr
      reportable.failures
    rw [← updatePolicy_valid_iff keys inPolicies, sameDomain] at rewritten
    rw [if_neg allowed]
    exact ⟨_, orError_eq_ok.mpr (updatePolicies_eq_some.mpr ⟨rewritten, rfl⟩)⟩

/-- A job names one attempt, and its domain has one policy. -/
theorem attemptWithPolicy_eq {selected : AttemptRow → Bool} (keys : Keys db)
    (member : attempt ∈ db.attempts) (inPolicies : policy ∈ db.policies)
    (sameDomain : policy.domainId = attempt.domainId) (chosen : selected attempt = true)
    (narrow : ∀ row, selected row = true → row.jobId = attempt.jobId) :
    db.attemptWithPolicy selected = some (attempt, policy) := by
  cases found : db.attemptWithPolicy selected with
  | none =>
      have absent := List.findSome?_eq_none_iff.mp found attempt member
      rw [if_pos chosen, Option.map_eq_none_iff, Database.policyOf, List.find?_eq_none] at absent
      exact absurd (beq_iff_eq.mpr sameDomain) (absent policy inPolicies)
  | some pair =>
      obtain ⟨row, joined⟩ := pair
      obtain ⟨inTable, selectedRow, inJoined, joinedDomain⟩ := attemptWithPolicy_eq_some found
      have sameRow := keys.attempt_eq_of_job inTable member (narrow row selectedRow)
      subst sameRow
      rw [eq_of_key_eq keys.policyKeys inJoined inPolicies (joinedDomain.trans sameDomain.symm)]

theorem recordAttemptOutcome_failed (failure : CrawlFailure) (now : Time)
    (settings : SchedulerSettings) (fresh : FreshJob) (keys : Keys db)
    (member : attempt ∈ db.attempts) (inPolicies : policy ∈ db.policies) (sameDomain : policy.domainId = attempt.domainId) :
    recordAttemptOutcome db attempt.jobId (.failed failure) now settings fresh =
      if attempt.status.isTerminal then .ok db
      else recordFailed db attempt failure now settings fresh := by
  have found : db.attemptWithPolicy (fun row => row.jobId == attempt.jobId) =
      some (attempt, policy) :=
    attemptWithPolicy_eq keys member inPolicies sameDomain (beq_self_eq_true _)
      fun row same => beq_iff_eq.mp same
  rw [recordAttemptOutcome, found]
  rfl

/-- What a failed outcome writes, whether or not a retry is left. -/
theorem recordFailed_rows (success : recordFailed db attempt failure now settings fresh = .ok next) :
    ∃ added posted, ∃ change : PolicyRow → PolicyRow,
      (∀ row ∈ added, row.id = fresh.attemptId ∧ row.idempotencyKey = .crawl fresh.jobId) ∧
      (∀ row ∈ posted, row.crawlAttemptId = fresh.attemptId ∧ row.jobId = fresh.jobId ∧
        row.idempotencyKey = .crawl fresh.jobId) ∧
      (∀ row, (change row).domainId = row.domainId ∧ (change row).createdAt = row.createdAt ∧
        (change row).desiredInterval = row.desiredInterval) ∧
      next.attempts = updateWhere (fun row => row.id == attempt.id)
        (AttemptRow.failedAt now failure) db.attempts ++ added ∧
      next.outbox = db.outbox ++ posted ∧
      next.policies =
        updateWhere (fun row => row.domainId == attempt.domainId) change db.policies := by
  obtain ⟨_, ⟨retryAt, _, _, _, rfl⟩ | ⟨_, rfl⟩⟩ := recordFailed_cases success
  · refine ⟨[_], [_], PolicyRow.retryingAt now retryAt, ?_, ?_, fun _ => ⟨rfl, rfl, rfl⟩, rfl, rfl,
      rfl⟩
    · intro row inAdded
      rw [List.mem_singleton.mp inAdded]
      exact ⟨rfl, rfl⟩
    · intro row inPosted
      rw [List.mem_singleton.mp inPosted]
      exact ⟨rfl, rfl, rfl⟩
  · refine ⟨[], [], PolicyRow.gaveUpAt now, ?_, ?_, fun _ => ⟨rfl, rfl, rfl⟩,
      (List.append_nil _).symm, (List.append_nil _).symm, rfl⟩
    · intro row inAdded
      cases inAdded
    · intro row inPosted
      cases inPosted

end Outcome

section Pass

variable {attempt other : AttemptRow} {failure : CrawlFailure} {fresh : FreshJob}

theorem recordFailed_clock (success : recordFailed db attempt failure now settings fresh = .ok next)
    (clock : Clock db now) : Clock next now := by
  obtain ⟨_, _, change, _, _, kept, _, _, policies⟩ := recordFailed_rows success
  refine ⟨clock.present, ?_, ?_⟩
  · intro row member
    rw [policies] at member
    rcases mem_updateWhere_cases member with ⟨old, _⟩ | ⟨before, inTable, _, rfl⟩
    · exact clock.created row old
    · rw [(kept before).2.1]
      exact clock.created before inTable
  · intro row member
    rw [policies] at member
    rcases mem_updateWhere_cases member with ⟨old, _⟩ | ⟨before, inTable, _, rfl⟩
    · exact clock.next row old
    · rw [(kept before).2.2]
      exact clock.next before inTable

theorem recordFailed_unused {later : FreshJob}
    (success : recordFailed db attempt failure now settings fresh = .ok next)
    (unused : Unused db later) (attemptsApart : fresh.attemptId ≠ later.attemptId)
    (jobsApart : fresh.jobId ≠ later.jobId) : Unused next later := by
  obtain ⟨added, posted, _, new, sent, _, attempts, outbox, _⟩ := recordFailed_rows success
  have keysApart : IdempotencyKey.crawl fresh.jobId ≠ .crawl later.jobId := by
    intro same
    exact jobsApart (IdempotencyKey.crawl.inj same)
  constructor
  · intro row member
    rw [attempts] at member
    rcases List.mem_append.mp member with old | inAdded
    · rcases mem_updateWhere_cases old with ⟨same, _⟩ | ⟨before, inTable, _, rfl⟩
      · exact unused.attempts row same
      · exact unused.attempts before inTable
    · rw [(new row inAdded).1, (new row inAdded).2]
      exact ⟨attemptsApart, keysApart⟩
  · intro row member
    rw [outbox] at member
    rcases List.mem_append.mp member with old | inPosted
    · exact unused.outbox row old
    · rw [(sent row inPosted).1, (sent row inPosted).2.1, (sent row inPosted).2.2]
      exact ⟨attemptsApart, jobsApart, keysApart⟩

/-- The attempts and policies of other domains are left alone. -/
theorem recordFailed_others (keys : Keys db) (member : attempt ∈ db.attempts)
    (success : recordFailed db attempt failure now settings fresh = .ok next)
    (inTable : other ∈ db.attempts) (apart : attempt.domainId ≠ other.domainId) :
    other ∈ next.attempts ∧ ∀ policy, policy.domainId = other.domainId →
      (policy ∈ next.policies ↔ policy ∈ db.policies) := by
  obtain ⟨added, _, change, _, _, kept, attempts, _, policies⟩ := recordFailed_rows success
  constructor
  · rw [attempts]
    apply List.mem_append_left
    apply mem_updateWhere_of_not inTable
    rw [beq_eq_false_iff_ne]
    intro same
    exact apart (congrArg AttemptRow.domainId (keys.attempt_eq inTable member same)).symm
  · intro policy sameDomain
    rw [policies]
    constructor
    · intro inNext
      rcases mem_updateWhere_cases inNext with ⟨old, _⟩ | ⟨before, _, selected, rfl⟩
      · exact old
      · rw [(kept before).1, beq_iff_eq.mp selected] at sameDomain
        exact absurd sameDomain apart
    · intro old
      apply mem_updateWhere_of_not old
      rw [beq_eq_false_iff_ne, sameDomain]
      exact apart.symm

theorem recordFailed_failed (member : attempt ∈ db.attempts)
    (success : recordFailed db attempt failure now settings fresh = .ok next) :
    attempt.failedAt now failure ∈ next.attempts := by
  obtain ⟨added, _, _, _, _, _, attempts, _, _⟩ := recordFailed_rows success
  rw [attempts]
  exact List.mem_append_left _ (mem_updateWhere_of_selected member (beq_self_eq_true _))

/-- The identifiers of a pass: none drawn before, none drawn twice. -/
structure Drawn (db : Database) (fresh : Uuid → FreshJob) (jobIds : List Uuid) : Prop where
  unused : ∀ jobId ∈ jobIds, Unused db (fresh jobId)
  apart : ∀ first ∈ jobIds, ∀ second ∈ jobIds, first ≠ second →
    (fresh first).attemptId ≠ (fresh second).attemptId ∧
      (fresh first).jobId ≠ (fresh second).jobId

/-- The attempts a pass works through: unresolved, of different domains. -/
structure Pending (db : Database) (stale : List AttemptRow) : Prop where
  members : ∀ attempt ∈ stale, attempt ∈ db.attempts ∧ attempt.status.isTerminal = false
  domains : (stale.map AttemptRow.domainId).Nodup

/-- One round of a pass leaves the rest of it as it was. -/
theorem pending_rest {stale : List AttemptRow} {draws : Uuid → FreshJob} (keys : Keys db)
    (pending : Pending db (attempt :: stale))
    (drawn : Drawn db draws ((attempt :: stale).map AttemptRow.jobId))
    (success : recordFailed db attempt failure now settings (draws attempt.jobId) = .ok next) :
    Pending next stale ∧ Drawn next draws (stale.map AttemptRow.jobId) ∧
      ∀ other ∈ stale, ∀ policy, policy.domainId = other.domainId →
        (policy ∈ next.policies ↔ policy ∈ db.policies) := by
  have member := (pending.members attempt List.mem_cons_self).1
  have distinct := pending.domains
  rw [List.map_cons, List.nodup_cons] at distinct
  have apart : ∀ other ∈ stale, attempt.domainId ≠ other.domainId := by
    intro other inStale same
    exact distinct.1 (List.mem_map.mpr ⟨other, inStale, same.symm⟩)
  have others := fun other (inStale : other ∈ stale) => recordFailed_others keys member success
    (pending.members other (List.mem_cons_of_mem attempt inStale)).1 (apart other inStale)
  refine ⟨⟨?_, distinct.2⟩, ⟨?_, ?_⟩, fun other inStale => (others other inStale).2⟩
  · intro other inStale
    exact ⟨(others other inStale).1,
      (pending.members other (List.mem_cons_of_mem attempt inStale)).2⟩
  · intro jobId inJobs
    obtain ⟨other, inStale, rfl⟩ := List.mem_map.mp inJobs
    have listed := List.mem_map_of_mem (f := AttemptRow.jobId) (List.mem_cons_of_mem attempt inStale)
    have first := List.mem_map_of_mem (f := AttemptRow.jobId)
      (List.mem_cons_self (a := attempt) (l := stale))
    have differ : attempt.jobId ≠ other.jobId := by
      intro same
      have inTable := (pending.members other (List.mem_cons_of_mem attempt inStale)).1
      exact apart other inStale
        (congrArg AttemptRow.domainId (keys.attempt_eq_of_job member inTable same))
    obtain ⟨attemptsApart, jobsApart⟩ := drawn.apart _ first _ listed differ
    exact recordFailed_unused success (drawn.unused _ listed) attemptsApart jobsApart
  · intro left inLeft right inRight
    exact drawn.apart left (List.mem_cons_of_mem _ inLeft) right (List.mem_cons_of_mem _ inRight)

/-- Every attempt of the pass is reportable. -/
def AllReportable (settings : SchedulerSettings) (now : Time) (db : Database)
    (stale : List AttemptRow) : Prop :=
  ∀ attempt ∈ stale, ∀ policy ∈ db.policies, policy.domainId = attempt.domainId →
    Reportable settings now attempt policy

instance (settings : SchedulerSettings) (now : Time) (db : Database) (stale : List AttemptRow) :
    Decidable (AllReportable settings now db stale) :=
  inferInstanceAs (Decidable (∀ attempt ∈ stale, ∀ policy ∈ db.policies,
    policy.domainId = attempt.domainId → Reportable settings now attempt policy))

theorem exists_policy (keys : Keys db) (member : attempt ∈ db.attempts) :
    ∃ policy ∈ db.policies, policy.domainId = attempt.domainId :=
  List.mem_map.mp (keys.known attempt member)

/-- A pass succeeds exactly when each of its attempts can be reported, because
no round touches the attempt or the policy of another. -/
theorem recoverEach_ok_iff (settings : SchedulerSettings) {draws : Uuid → FreshJob}
    (stale : List AttemptRow) (keys : Keys db) (valid : RowsValid db) (clock : Clock db now) (pending : Pending db stale)
    (drawn : Drawn db draws (stale.map AttemptRow.jobId)) :
    (recoverEach now settings draws db (stale.map AttemptRow.jobId)).2 = .ok () ↔
      AllReportable settings now db stale := by
  induction stale generalizing db with
  | nil =>
      constructor
      · intro _ attempt member
        cases member
      · intro _
        rfl
  | cons attempt rest ih =>
      obtain ⟨member, unresolved⟩ := pending.members attempt List.mem_cons_self
      obtain ⟨policy, inPolicies, sameDomain⟩ := exists_policy keys member
      have unused := drawn.unused attempt.jobId List.mem_cons_self
      have outcome := recordAttemptOutcome_failed leaseExpired now settings (draws attempt.jobId)
        keys member inPolicies sameDomain
      rw [unresolved] at outcome
      rw [List.map_cons, recoverEach, outcome]
      cases result : recordFailed db attempt leaseExpired now settings (draws attempt.jobId) with
      | error reason =>
          constructor
          · intro same
            cases same
          · intro all
            have reportable := all attempt List.mem_cons_self policy inPolicies sameDomain
            obtain ⟨next, success⟩ := recordFailed_of_reportable leaseExpired keys valid clock
              member inPolicies sameDomain unresolved unused reportable
            rw [result] at success
            cases success
      | ok next =>
          have here := recordFailed_reportable keys valid clock member inPolicies sameDomain result
          obtain ⟨restPending, restDrawn, kept⟩ := pending_rest keys pending drawn result
          have resolved : Resolution (fun _ => False) db false next := Resolution.fail member result
          have nextKeys := resolution_keys resolved keys
          have tail := ih nextKeys (recordFailed_rowsValid result valid)
            (recordFailed_clock result clock) restPending restDrawn
          refine tail.trans ?_
          constructor
          · intro all other inStale joined inJoined same
            rcases List.mem_cons.mp inStale with rfl | later
            · rw [eq_of_key_eq keys.policyKeys inJoined inPolicies (same.trans sameDomain.symm)]
              exact here
            · exact all other later joined ((kept other later joined same).mpr inJoined) same
          · intro all other inStale joined inJoined same
            exact all other (List.mem_cons_of_mem attempt inStale) joined
              ((kept other inStale joined same).mp inJoined) same

/-- A pass that succeeds has failed every attempt it selected. -/
theorem recoverEach_failed (crate : UrlCrate) (now : Time) (settings : SchedulerSettings)
    {draws : Uuid → FreshJob} (stale : List AttemptRow) (keys : Keys db) (pending : Pending db stale)
    (drawn : Drawn db draws (stale.map AttemptRow.jobId))
    (success : (recoverEach now settings draws db (stale.map AttemptRow.jobId)).2 = .ok ()) :
    ∀ attempt ∈ stale, attempt.failedAt now leaseExpired ∈
      (recoverEach now settings draws db (stale.map AttemptRow.jobId)).1.attempts := by
  induction stale generalizing db with
  | nil =>
      intro attempt member
      cases member
  | cons attempt rest ih =>
      obtain ⟨member, unresolved⟩ := pending.members attempt List.mem_cons_self
      obtain ⟨policy, inPolicies, sameDomain⟩ := exists_policy keys member
      have outcome := recordAttemptOutcome_failed leaseExpired now settings (draws attempt.jobId)
        keys member inPolicies sameDomain
      rw [unresolved] at outcome
      rw [List.map_cons, recoverEach, outcome] at success ⊢
      cases result : recordFailed db attempt leaseExpired now settings (draws attempt.jobId) with
      | error reason =>
          rw [result] at success
          cases success
      | ok next =>
          rw [result] at success
          have resolved : Resolution (fun _ => False) db false next := Resolution.fail member result
          have nextKeys := resolution_keys resolved keys
          obtain ⟨restPending, restDrawn, _⟩ := pending_rest keys pending drawn result
          intro other inStale
          rcases List.mem_cons.mp inStale with rfl | later
          · -- the later rounds are a run, and a run keeps what is terminal
            obtain ⟨calls, _, same⟩ := recoverEach_run crate now settings draws next
              (rest.map AttemptRow.jobId)
            have ended := recordFailed_failed member result
            simp only [Bool.false_eq_true, ↓reduceIte]
            rw [same]
            exact run_terminal nextKeys rfl ended
          · exact ih nextKeys restPending restDrawn success other later

end Pass

section Stale

/-- The attempts `recover_stale_attempts` selects. -/
def staleAttempts (db : Database) (staleBefore : Time) (limit : Nat) : List AttemptRow :=
  ((db.attempts.filter (isStale staleBefore)).insertionSort fun left right =>
    left.startedBefore right).take limit

theorem staleJobIds_eq (db : Database) (staleBefore : Time) (limit : Nat) :
    staleJobIds db staleBefore limit = (staleAttempts db staleBefore limit).map AttemptRow.jobId :=
  rfl

theorem mem_staleAttempts {staleBefore : Time} {limit : Nat} {attempt : AttemptRow}
    (member : attempt ∈ staleAttempts db staleBefore limit) :
    attempt ∈ db.attempts ∧ attempt.status = .running := by
  have sorted := List.mem_of_mem_take member
  rw [List.mem_insertionSort, List.mem_filter] at sorted
  have stale := sorted.2
  rw [isStale, Bool.and_eq_true, beq_iff_eq] at stale
  exact ⟨sorted.1, stale.1⟩

/-- A domain has one attempt in flight, so a pass meets it once. -/
theorem staleAttempts_pending (staleBefore : Time) (limit : Nat) (single : SingleActive db) :
    Pending db (staleAttempts db staleBefore limit) := by
  constructor
  · intro attempt member
    obtain ⟨inTable, running⟩ := mem_staleAttempts member
    exact ⟨inTable, by rw [running]; rfl⟩
  · rw [List.nodup_iff_count_le_one]
    intro domainId
    have active : ∀ attempt ∈ staleAttempts db staleBefore limit,
        (attempt.domainId == domainId) = true → attempt.activeFor domainId = true := by
      intro attempt member same
      rw [AttemptRow.activeFor, same, (mem_staleAttempts member).2]
      rfl
    have sorted := List.perm_insertionSort
      (fun left right : AttemptRow => (left.startedBefore right : Prop))
      (db.attempts.filter (isStale staleBefore))
    calc
      _ = (staleAttempts db staleBefore limit).countP (fun attempt => attempt.domainId == domainId) := by
        rw [List.count, List.countP_map]
        rfl
      _ ≤ (staleAttempts db staleBefore limit).countP (AttemptRow.activeFor domainId) :=
        List.countP_mono_left active
      _ ≤ (db.attempts.filter (isStale staleBefore)).countP (AttemptRow.activeFor domainId) := by
        rw [← sorted.countP_eq]
        exact (List.take_sublist limit _).countP_le
      _ ≤ activeCount db domainId := List.filter_sublist.countP_le
      _ ≤ 1 := single.single domainId

variable {staleBefore : Time} {staleAfter : Duration} {limit : Nat} {draws : Uuid → FreshJob}

theorem recoverStaleAttempts_eq (positive : 0 < limit) (fits : limit < 2 ^ 63)
    (before : checkedSub now staleAfter = some staleBefore) :
    recoverStaleAttempts db now staleAfter limit settings draws =
      ((recoverEach now settings draws db (staleJobIds db staleBefore limit)).1,
        (recoverEach now settings draws db (staleJobIds db staleBefore limit)).2.map
          fun _ => (staleJobIds db staleBefore limit).length) := by
  unfold recoverStaleAttempts
  rw [if_neg (by omega), before]
  simp only
  rw [if_neg (by omega)]
  cases result : recoverEach now settings draws db (staleJobIds db staleBefore limit) with
  | mk recovered outcome => cases outcome <;> rfl

/-- The recovery of `scheduler_tick` succeeds, with every selected attempt
resolved, exactly when each of them can be reported. -/
theorem recoverStaleAttempts_ok_iff (settings : SchedulerSettings) (crate : UrlCrate) (keys : Keys db) (valid : RowsValid db)
    (single : SingleActive db) (clock : Clock db now) (positive : 0 < limit)
    (fits : limit < 2 ^ 63) (before : checkedSub now staleAfter = some staleBefore)
    (drawn : Drawn db draws (staleJobIds db staleBefore limit)) :
    ((recoverStaleAttempts db now staleAfter limit settings draws).2 =
        .ok (staleJobIds db staleBefore limit).length ∧
      ∀ attempt ∈ staleAttempts db staleBefore limit, attempt.failedAt now leaseExpired ∈
        (recoverStaleAttempts db now staleAfter limit settings draws).1.attempts) ↔
      AllReportable settings now db (staleAttempts db staleBefore limit) := by
  have pending := staleAttempts_pending staleBefore limit single
  have pass := recoverEach_ok_iff settings (staleAttempts db staleBefore limit) keys valid clock
    pending drawn
  have resolved := recoverEach_failed crate now settings (staleAttempts db staleBefore limit) keys
    pending drawn
  rw [← staleJobIds_eq] at pass resolved
  rw [recoverStaleAttempts_eq positive fits before]
  cases result : recoverEach now settings draws db (staleJobIds db staleBefore limit) with
  | mk recovered outcome =>
      rw [result] at pass resolved
      cases outcome with
      | ok done =>
          constructor
          · intro _
            exact pass.mp rfl
          · intro _
            exact ⟨rfl, resolved rfl⟩
      | error reason =>
          constructor
          · intro both
            cases both.1
          · intro all
            cases pass.mpr all

end Stale

section Tick

/-- The jobs `scheduler_tick` reserves and then publishes. -/
def reserveAndList (db : Database) (now : Time) (batchSize : Nat) (due : Uuid → FreshJob) :
    Database × Except SchedulerRepositoryError (List PendingCrawlJob) :=
  match reserveDue db now batchSize due with
  | .error reason => (db, .error reason)
  | .ok (reserved, _) => (reserved, pendingPublications reserved now batchSize)

/-- `scheduler_tick` up to its publications: each `?` ends it. -/
def schedulerTick (db : Database) (now : Time) (staleAfter : Duration) (batchSize : Nat)
    (settings : SchedulerSettings) (draws due : Uuid → FreshJob) :
    Database × Except SchedulerRepositoryError (List PendingCrawlJob) :=
  match recoverStaleAttempts db now staleAfter batchSize settings draws with
  | (recovered, .error reason) => (recovered, .error reason)
  | (recovered, .ok _) => reserveAndList recovered now batchSize due

theorem schedulerTick_of_recovered {staleAfter : Duration} {batchSize count : Nat}
    {draws : Uuid → FreshJob} (due : Uuid → FreshJob)
    (success : (recoverStaleAttempts db now staleAfter batchSize settings draws).2 = .ok count) :
    schedulerTick db now staleAfter batchSize settings draws due =
      reserveAndList (recoverStaleAttempts db now staleAfter batchSize settings draws).1 now
        batchSize due := by
  unfold schedulerTick
  cases result : recoverStaleAttempts db now staleAfter batchSize settings draws with
  | mk recovered outcome =>
      rw [result] at success
      cases success
      rfl

/-- In every reachable store a failed outcome is recorded exactly for the
attempts it can be reported for, and a tick gets past its recovery, with every
stale attempt resolved, exactly when that holds of all of them. -/
theorem failed_outcome_recorded_iff (crate : UrlCrate) (catalogue : Catalogue) (calls : List Call)
    (now : Time) (settings : SchedulerSettings)
    (clock : Clock (reached crate catalogue calls) now) :
    let db := reached crate catalogue calls
    (∀ attempt ∈ db.attempts, ∀ policy ∈ db.policies, policy.domainId = attempt.domainId →
      ∀ failure fresh, Unused db fresh →
      ((∃ next, recordAttemptOutcome db attempt.jobId (.failed failure) now settings fresh =
          .ok next) ↔
        attempt.status.isTerminal = true ∨ Reportable settings now attempt policy)) ∧
    ∀ staleAfter staleBefore batchSize draws due, 0 < batchSize → batchSize < 2 ^ 63 →
      checkedSub now staleAfter = some staleBefore →
      Drawn db draws (staleJobIds db staleBefore batchSize) →
      let recovered := recoverStaleAttempts db now staleAfter batchSize settings draws
      ((recovered.2 = .ok (staleJobIds db staleBefore batchSize).length ∧
          ∀ attempt ∈ staleAttempts db staleBefore batchSize,
            attempt.failedAt now leaseExpired ∈ recovered.1.attempts) ∧
        schedulerTick db now staleAfter batchSize settings draws due =
          reserveAndList recovered.1 now batchSize due) ↔
      AllReportable settings now db (staleAttempts db staleBefore batchSize) := by
  intro db
  have keys := reached_keys crate catalogue calls
  have valid := reached_rowsValid crate catalogue calls
  have single := reached_singleActive crate catalogue calls
  constructor
  · intro attempt member policy inPolicies sameDomain failure fresh unused
    rw [recordAttemptOutcome_failed failure now settings fresh keys member inPolicies sameDomain]
    by_cases terminal : attempt.status.isTerminal = true
    · rw [if_pos terminal]
      exact ⟨fun _ => Or.inl terminal, fun _ => ⟨db, rfl⟩⟩
    · rw [if_neg terminal]
      constructor
      · intro success
        obtain ⟨next, success⟩ := success
        exact Or.inr (recordFailed_reportable keys valid clock member inPolicies sameDomain success)
      · intro reportable
        have unresolved : attempt.status.isTerminal = false := by simpa using terminal
        exact recordFailed_of_reportable failure keys valid clock member inPolicies sameDomain
          unresolved unused (reportable.resolve_left terminal)
  · intro staleAfter staleBefore batchSize draws due positive fits before drawn recovered
    have pass := recoverStaleAttempts_ok_iff settings crate keys valid single clock positive fits
      before drawn
    constructor
    · intro all
      exact pass.mp all.1
    · intro all
      have success := pass.mpr all
      exact ⟨success, schedulerTick_of_recovered due success.1⟩

/-- A crawl whose worker never reports. -/
def abandonedCrawl : List Call :=
  [.createWithAudit 1 exampleDomain DomainCreationDefaults.crawlPolicy "operator".toList 0,
    .reserveDue 0 10 fun _ => ⟨1001, 101, 12⟩,
    .claimAttempt (newJobWithCorrelation 1 12 101) 10000000000]

theorem abandonedCrawl_recovered :
    let db := reached plainUrlCrate Catalogue.empty abandonedCrawl
    staleJobIds db 10000000000 10 = [101] ∧
      (recoverStaleAttempts db 20000000000 10000000000 10 .default
        fun _ => ⟨1002, 102, 0⟩).2 = .ok 1 := by
  have drawn : Drawn (reached plainUrlCrate Catalogue.empty abandonedCrawl) (fun _ => ⟨1002, 102, 0⟩)
      (staleJobIds (reached plainUrlCrate Catalogue.empty abandonedCrawl) 10000000000 10) :=
    ⟨by decide +kernel, by decide +kernel⟩
  have recovered := (failed_outcome_recorded_iff plainUrlCrate Catalogue.empty abandonedCrawl
    20000000000 .default (by decide +kernel)).2 10000000000 10000000000 10 _
    (fun _ => ⟨1003, 103, 0⟩) (by decide) (by decide) (by decide) drawn
  exact ⟨by decide +kernel, (recovered.mpr (by decide +kernel)).1.1⟩

theorem five_attempts : (0 : UInt8) < 5 := by decide

/-- More retries than a `u32` has bits to shift by. -/
def patientSettings : SchedulerSettings where
  maxCrawlRetries := 33
  crawlRetryBase := 1
  maxOutboxPublishAttempts := 5
  outboxRetryBase := 1
  crawlRetryBase_pos := Nat.one_pos
  maxOutboxPublishAttempts_pos := five_attempts
  outboxRetryBase_pos := Nat.one_pos

/-- The `number`th attempt starts and is recorded as failed. -/
def failedRound (number : Nat) : List Call :=
  [.claimAttempt (newJobWithCorrelation 1 12 (100 + number)) (number * 10000000000),
    .recordAttemptOutcome (100 + number) (.failed leaseExpired) (number * 10000000000 + 1)
      patientSettings ⟨1001 + number, 101 + number, 0⟩]

/-- Thirty-two failures, each with its retry, and a worker that takes the
thirty-third attempt and never reports. -/
def thirtyThreeAttempts : List Call :=
  [.createWithAudit 1 exampleDomain DomainCreationDefaults.crawlPolicy "operator".toList 0,
    .reserveDue 0 10 fun _ => ⟨1001, 101, 12⟩] ++
    (List.range 32).flatMap (fun round => failedRound (round + 1)) ++
    [.claimAttempt (newJobWithCorrelation 1 12 133) 330000000000]

theorem thirtyThreeAttempts_abort_tick :
    let db := reached plainUrlCrate Catalogue.empty thirtyThreeAttempts
    SchedulerSettings.new 33 1 5 1 = .ok patientSettings ∧ Clock db 340000000000 ∧
      Unused db ⟨2001, 201, 0⟩ ∧ staleJobIds db 330000000000 10 = [133] ∧
      (recordAttemptOutcome db 133 (.failed leaseExpired) 340000000000 patientSettings
        ⟨2001, 201, 0⟩).isOk = false ∧
      (recoverStaleAttempts db 340000000000 10000000000 10 patientSettings
        fun _ => ⟨2001, 201, 0⟩).2.isOk = false ∧
      (schedulerTick db 340000000000 10000000000 10 patientSettings (fun _ => ⟨2001, 201, 0⟩)
        fun _ => ⟨2002, 202, 0⟩).2.isOk = false :=
  ⟨rfl, by decide +kernel⟩

end Tick

end TechAtlas.Crawl
