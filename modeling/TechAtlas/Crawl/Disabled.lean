import TechAtlas.Crawl.Recovery

set_option autoImplicit false

/- Domains whose crawling is disabled. Three transactions queue a crawl, and of
these only the reservation reads the flag of the policy. -/
namespace TechAtlas.Crawl

open Library Store

variable {crate : UrlCrate} {db next : Database}

section Definitions

/-- A transaction, or a recovery pass, which runs one for each stale attempt. -/
inductive StoreStep
  | transaction (call : Call)
  | recoverStaleAttempts (now : Time) (staleAfter : Duration) (limit : Nat)
      (settings : SchedulerSettings) (fresh : Uuid → FreshJob)

def StoreStep.exec (crate : UrlCrate) (db : Database) : StoreStep → Database
  | .transaction call => Store.exec crate db call
  | .recoverStaleAttempts now staleAfter limit settings fresh =>
      (Store.recoverStaleAttempts db now staleAfter limit settings fresh).1

def isDisabled (db : Database) (domainId : Uuid) : Bool :=
  db.policies.any fun policy => policy.domainId == domainId && !policy.isEnabled

/-- The crawls and messages that are new belong to such domains. -/
structure AddsOnly (allowed : Uuid → Prop) (db next : Database) : Prop where
  attempts : ∀ attempt ∈ next.attempts,
    (∃ old ∈ db.attempts, old.id = attempt.id ∧ old.domainId = attempt.domainId) ∨
      allowed attempt.domainId
  outbox : ∀ row ∈ next.outbox,
    (∃ old ∈ db.outbox, old.jobId = row.jobId ∧ old.domainId = row.domainId) ∨
      allowed row.domainId

/-- No crawl is queued for a domain that was disabled before the step. -/
def SparesDisabled (db next : Database) : Prop :=
  AddsOnly (fun domainId => isDisabled db domainId = false) db next

instance (db next : Database) : Decidable (SparesDisabled db next) :=
  decidable_of_iff
    ((∀ attempt ∈ next.attempts,
        (∃ old ∈ db.attempts, old.id = attempt.id ∧ old.domainId = attempt.domainId) ∨
          isDisabled db attempt.domainId = false) ∧
      ∀ row ∈ next.outbox,
        (∃ old ∈ db.outbox, old.jobId = row.jobId ∧ old.domainId = row.domainId) ∨
          isDisabled db row.domainId = false)
    ⟨fun both => ⟨both.1, both.2⟩, fun adds => ⟨adds.attempts, adds.outbox⟩⟩

/-- The failure of an unresolved attempt with a retry left is reported for an
enabled domain only. -/
def reportsEnabled (db : Database) (report : FailureReport) : Prop :=
  ∀ attempt ∈ db.attempts, attempt.jobId = report.jobId → attempt.status.isTerminal = false →
    attempt.attemptNumber ≤ report.settings.maxCrawlRetries.toNat →
    isDisabled db attempt.domainId = false

instance (db : Database) (report : FailureReport) : Decidable (reportsEnabled db report) :=
  inferInstanceAs (Decidable (∀ attempt ∈ db.attempts, attempt.jobId = report.jobId →
    attempt.status.isTerminal = false →
    attempt.attemptNumber ≤ report.settings.maxCrawlRetries.toNat →
    isDisabled db attempt.domainId = false))

/-- The steps that queue a retry do so for enabled domains only. -/
def retriesEnabled (db : Database) : StoreStep → Prop
  | .transaction (.retryTerminalAttempt jobId _ _ _) => ∀ attempt ∈ db.attempts, attempt.jobId = jobId →
      attempt.status = .failed → isDisabled db attempt.domainId = false
  | .transaction call => ∀ report ∈ call.failureReport, reportsEnabled db report
  | .recoverStaleAttempts now staleAfter limit settings _ =>
      ∀ staleBefore ∈ checkedSub now staleAfter, ∀ attempt ∈ staleAttempts db staleBefore limit,
        attempt.attemptNumber ≤ settings.maxCrawlRetries.toNat →
        isDisabled db attempt.domainId = false

end Definitions

section Additions

variable {allowed : Uuid → Prop}

theorem AddsOnly.unchanged (attempts : next.attempts = db.attempts)
    (outbox : next.outbox = db.outbox) : AddsOnly allowed db next := by
  constructor
  · intro attempt member
    rw [attempts] at member
    exact Or.inl ⟨attempt, member, rfl, rfl⟩
  · intro row member
    rw [outbox] at member
    exact Or.inl ⟨row, member, rfl, rfl⟩

theorem AddsOnly.trans {first second third : Database} (left : AddsOnly allowed first second)
    (right : AddsOnly allowed second third) : AddsOnly allowed first third := by
  constructor
  · intro attempt member
    rcases right.attempts attempt member with ⟨mid, inMid, sameId, sameDomain⟩ | new
    · rw [← sameId, ← sameDomain]
      exact left.attempts mid inMid
    · exact Or.inr new
  · intro row member
    rcases right.outbox row member with ⟨mid, inMid, sameJob, sameDomain⟩ | new
    · rw [← sameJob, ← sameDomain]
      exact left.outbox mid inMid
    · exact Or.inr new

/-- An update that keeps the key of every row adds none. -/
theorem AddsOnly.amend {change : AttemptRow → AttemptRow} {id : Uuid}
    (attempts : next.attempts = updateWhere (fun row => row.id == id) change db.attempts)
    (outbox : next.outbox = db.outbox)
    (keeps : ∀ row, (change row).id = row.id ∧ (change row).domainId = row.domainId) :
    AddsOnly allowed db next := by
  constructor
  · intro attempt member
    rw [attempts] at member
    rcases mem_updateWhere_cases member with ⟨old, _⟩ | ⟨old, inTable, _, rfl⟩
    · exact Or.inl ⟨attempt, old, rfl, rfl⟩
    · exact Or.inl ⟨old, inTable, (keeps old).1.symm, (keeps old).2.symm⟩
  · intro row member
    rw [outbox] at member
    exact Or.inl ⟨row, member, rfl, rfl⟩

theorem AddsOnly.enqueue {attempt : AttemptRow} {row : OutboxRow}
    (attempts : next.attempts = db.attempts ++ [attempt]) (outbox : next.outbox = db.outbox ++ [row])
    (attemptAllowed : allowed attempt.domainId) (rowAllowed : allowed row.domainId) :
    AddsOnly allowed db next := by
  constructor
  · intro added member
    rw [attempts, List.mem_append, List.mem_singleton] at member
    rcases member with old | rfl
    · exact Or.inl ⟨added, old, rfl, rfl⟩
    · exact Or.inr attemptAllowed
  · intro added member
    rw [outbox, List.mem_append, List.mem_singleton] at member
    rcases member with old | rfl
    · exact Or.inl ⟨added, old, rfl, rfl⟩
    · exact Or.inr rowAllowed

theorem reserveDomains_adds {now : Time} {fresh : Uuid → FreshJob} {domainIds : List Uuid}
    {jobs : List CrawlJobV1} (permitted : ∀ domainId ∈ domainIds, allowed domainId)
    (success : reserveDomains now fresh db domainIds = .ok (next, jobs)) :
    AddsOnly allowed db next := by
  induction domainIds generalizing db jobs with
  | nil =>
      simp only [reserveDomains, Except.ok.injEq, Prod.mk.injEq] at success
      rw [← success.1]
      exact AddsOnly.unchanged rfl rfl
  | cons domainId rest ih =>
      simp only [reserveDomains, bind_eq_ok] at success
      obtain ⟨⟨mid, job⟩, reserved, ⟨last, more⟩, remaining, same⟩ := success
      cases same
      have here := permitted domainId List.mem_cons_self
      have first : AddsOnly allowed db mid := by
        obtain ⟨_, _, rfl⟩ := reserveDomain_eq_ok reserved
        exact AddsOnly.enqueue rfl rfl here here
      apply first.trans
      exact ih (fun other member => permitted other (List.mem_cons_of_mem domainId member)) remaining

/-- A failed attempt queues a crawl of its own domain, if it has a retry left. -/
theorem recordFailed_adds {attempt : AttemptRow} {failure : CrawlFailure} {now : Time}
    {settings : SchedulerSettings} {fresh : FreshJob}
    (success : recordFailed db attempt failure now settings fresh = .ok next)
    (permitted : attempt.attemptNumber ≤ settings.maxCrawlRetries.toNat →
      allowed attempt.domainId) : AddsOnly allowed db next := by
  obtain ⟨_, ⟨retryAt, few, _, _, rfl⟩ | ⟨_, rfl⟩⟩ := recordFailed_cases success
  · -- the store between the two statements: the attempt has failed, nothing is queued yet
    have failed : AddsOnly allowed db { db with
        attempts := updateWhere (fun row => row.id == attempt.id)
          (AttemptRow.failedAt now failure) db.attempts } :=
      AddsOnly.amend rfl rfl fun _ => ⟨rfl, rfl⟩
    apply failed.trans
    exact AddsOnly.enqueue rfl rfl (permitted few) (permitted few)
  · exact AddsOnly.amend rfl rfl fun _ => ⟨rfl, rfl⟩

end Additions

section Calls

theorem isDisabled_of_due (keys : Keys db) {now : Time} {limit : Nat} {domainId : Uuid}
    (selected : domainId ∈ dueDomains db now limit) : isDisabled db domainId = false := by
  obtain ⟨policy, inPolicies, rfl, due⟩ := dueDomains_due selected
  have enabled : policy.isEnabled = true := by
    simp only [isDue, Bool.and_eq_true] at due
    exact due.1.1.2
  rw [isDisabled, List.any_eq_false]
  intro other inTable disabled
  simp only [Bool.and_eq_true, beq_iff_eq, Bool.not_eq_true'] at disabled
  have same := eq_of_key_eq keys.policyKeys inTable inPolicies disabled.1
  rw [same, enabled] at disabled
  cases disabled.2

theorem reserveDue_adds (keys : Keys db) {now : Time} {limit : Nat} {fresh : Uuid → FreshJob}
    {jobs : List CrawlJobV1} (success : reserveDue db now limit fresh = .ok (next, jobs)) :
    SparesDisabled db next := by
  unfold reserveDue at success
  split at success
  · simp only [Except.ok.injEq, Prod.mk.injEq] at success
    rw [← success.1]
    exact AddsOnly.unchanged rfl rfl
  · split at success
    · cases success
    · exact reserveDomains_adds (fun domainId due => isDisabled_of_due keys due) success

theorem reportsEnabled_of_call {call : Call} {report : FailureReport}
    (enabled : retriesEnabled db (.transaction call))
    (reports : call.failureReport = some report) : reportsEnabled db report := by
  cases call <;> first | exact enabled report reports | cases reports

theorem exec_sparesDisabled (crate : UrlCrate) (keys : Keys db) {call : Call}
    (enabled : retriesEnabled db (.transaction call)) :
    SparesDisabled db (Store.exec crate db call) := by
  cases exec_work crate db call with
  | adjust adjustments =>
      obtain ⟨attempts, outbox⟩ := adjustments.queue
      exact AddsOnly.unchanged attempts outbox
  | reserve success => exact reserveDue_adds keys success
  | publish _ same keeps =>
      rw [same]
      refine ⟨fun attempt member => Or.inl ⟨attempt, member, rfl, rfl⟩, ?_⟩
      intro row member
      rcases mem_updateWhere_cases member with ⟨old, _⟩ | ⟨old, inTable, _, rfl⟩
      · exact Or.inl ⟨row, old, rfl, rfl⟩
      · have sameJob := congrArg Posting.jobId (keeps old)
        have sameDomain := congrArg Posting.domainId (keeps old)
        exact Or.inl ⟨old, inTable, sameJob.symm, sameDomain.symm⟩
  | claim _ updated =>
      obtain ⟨_, same⟩ := updateAttempt_eq_some.mp updated
      rw [same]
      exact AddsOnly.amend rfl rfl fun _ => ⟨rfl, rfl⟩
  | succeed _ success =>
      obtain ⟨_, _, _, _, _, _, same⟩ := persistSuccess_eq_ok success
      rw [same]
      exact AddsOnly.amend rfl rfl fun _ => ⟨rfl, rfl⟩
  | bare _ success =>
      obtain ⟨_, same⟩ := recordSucceeded_eq_ok success
      rw [same]
      exact AddsOnly.amend rfl rfl fun _ => ⟨rfl, rfl⟩
  | @fail _ _ attempt report reports member sameJob success =>
      have unresolved := (recordFailed_cases success).1 attempt member rfl
      apply recordFailed_adds success
      exact reportsEnabled_of_call enabled reports attempt member sameJob unresolved
  | retry success =>
      obtain ⟨attempt, member, _, _, _, sameJob, failed, _, _, _, _, same⟩ :=
        retryTerminalAttempt_eq_ok success
      have permitted := enabled attempt member sameJob failed
      rw [same]
      exact AddsOnly.enqueue rfl rfl permitted permitted
  | refresh success =>
      obtain ⟨_, _, _, _, _, same⟩ := requestRefresh_eq_ok success
      rw [same]
      exact AddsOnly.unchanged rfl rfl

/-- A report that is accepted is an outcome recorded for its job. -/
theorem transact_failureReport {call : Call} {report : FailureReport}
    (reports : call.failureReport = some report) (committed : transact crate db call = some next) :
    recordAttemptOutcome db report.jobId (.failed report.failure) report.now report.settings
      report.fresh = .ok next := by
  cases call <;> try cases reports
  case recordFailure job failure finishedAt settings fresh =>
    exact mapError_eq_ok.mp (toOption_eq_some.mp committed)
  case recordAttemptOutcome jobId outcome now settings fresh =>
    cases outcome with
    | succeeded => cases reports
    | failed failure =>
        cases reports
        exact toOption_eq_some.mp committed

/-- A crawl under an identifier that no attempt had is new. -/
theorem SparesDisabled.enabled {row : AttemptRow} (spares : SparesDisabled db next)
    (member : row ∈ next.attempts) (new : ∀ old ∈ db.attempts, old.id ≠ row.id) :
    isDisabled db row.domainId = false := by
  rcases spares.attempts row member with ⟨old, inTable, same, _⟩ | enabled
  · exact absurd same (new old inTable)
  · exact enabled

theorem reportsEnabled_of_spares (keys : Keys db) {call : Call} {report : FailureReport}
    (reports : call.failureReport = some report) (committed : transact crate db call = some next)
    (spares : SparesDisabled db next) : reportsEnabled db report := by
  intro attempt member sameJob unresolved few
  obtain ⟨found, inTable, foundJob, ⟨terminal, _⟩ | ⟨_, ⟨bare, _⟩ | ⟨failure, _, failed⟩⟩⟩ :=
    recordAttemptOutcome_cases (transact_failureReport reports committed)
  · have same := keys.attempt_eq_of_job member inTable (sameJob.trans foundJob.symm)
    rw [same, terminal] at unresolved
    cases unresolved
  · cases bare
  · have same := keys.attempt_eq_of_job inTable member (foundJob.trans sameJob.symm)
    subst same
    obtain ⟨_, ⟨retryAt, _, admitted, _, rfl⟩ | ⟨many, _⟩⟩ := recordFailed_cases failed
    · have enabled := spares.enabled (List.mem_append_right _ (List.mem_singleton.mpr rfl)) ?_
      · exact enabled
      · intro old inOld
        have fresh := admitsAttempt_fresh admitted
        by_cases selected : old.id = found.id
        · exact fresh (old.failedAt _ _)
            (mem_updateWhere_of_selected inOld (beq_iff_eq.mpr selected))
        · exact fresh old (mem_updateWhere_of_not inOld (beq_eq_false_iff_ne.mpr selected))
    · exact absurd few (Nat.not_le.mpr many)

/-- A call that is accepted and spares the disabled domains retries for enabled
ones. -/
theorem retriesEnabled_of_spares (keys : Keys db) {call : Call}
    (committed : transact crate db call = some next) (spares : SparesDisabled db next) :
    retriesEnabled db (.transaction call) := by
  cases call <;>
    try exact fun report reports => reportsEnabled_of_spares keys reports committed spares
  case retryTerminalAttempt jobId actorSubject now fresh =>
    obtain ⟨found, inTable, _, _, _, foundJob, _, _, _, admitted, _, rfl⟩ :=
      retryTerminalAttempt_eq_ok (toOption_eq_some.mp committed)
    intro attempt member sameJob _
    have same := keys.attempt_eq_of_job inTable member (foundJob.trans sameJob.symm)
    subst same
    have enabled := spares.enabled (List.mem_append_right _ (List.mem_singleton.mpr rfl))
      (admitsAttempt_fresh admitted)
    exact enabled

end Calls

section Recovery

variable {allowed : Uuid → Prop} {settings : SchedulerSettings}

/-- A retry of the job's attempt is permitted. -/
def Permits (allowed : Uuid → Prop) (settings : SchedulerSettings) (db : Database)
    (jobId : Uuid) : Prop :=
  ∃ attempt ∈ db.attempts, attempt.jobId = jobId ∧
    (attempt.attemptNumber ≤ settings.maxCrawlRetries.toNat → allowed attempt.domainId)

theorem recordFailed_permits {attempt : AttemptRow} {failure : CrawlFailure} {now : Time}
    {fresh : FreshJob} {jobId : Uuid}
    (success : recordFailed db attempt failure now settings fresh = .ok next)
    (permits : Permits allowed settings db jobId) : Permits allowed settings next jobId := by
  obtain ⟨row, member, sameJob, permitted⟩ := permits
  obtain ⟨_, _, _, _, _, _, attempts, _, _⟩ := recordFailed_rows success
  by_cases selected : row.id = attempt.id
  · refine ⟨row.failedAt now failure, ?_, sameJob, permitted⟩
    rw [attempts]
    exact List.mem_append_left _ (mem_updateWhere_of_selected member (by simpa using selected))
  · refine ⟨row, ?_, sameJob, permitted⟩
    rw [attempts]
    exact List.mem_append_left _ (mem_updateWhere_of_not member (by simpa using selected))

/-- The rounds of a recovery pass, up to the one that fails. -/
theorem recoverEach_adds (now : Time) (fresh : Uuid → FreshJob) {jobIds : List Uuid}
    (keys : Keys db) (permits : ∀ jobId ∈ jobIds, Permits allowed settings db jobId) :
    AddsOnly allowed db (recoverEach now settings fresh db jobIds).1 := by
  induction jobIds generalizing db with
  | nil => exact AddsOnly.unchanged rfl rfl
  | cons jobId rest ih =>
      unfold recoverEach
      split
      · rename_i next success
        obtain ⟨found, inTable, foundJob, ⟨_, rfl⟩ | ⟨_, ⟨bare, _⟩ | ⟨failure, _, failed⟩⟩⟩ :=
          recordAttemptOutcome_cases success
        · exact ih keys fun other member => permits other (List.mem_cons_of_mem jobId member)
        · cases bare
        · obtain ⟨attempt, member, sameJob, permitted⟩ := permits jobId List.mem_cons_self
          have same := keys.attempt_eq_of_job inTable member (foundJob.trans sameJob.symm)
          rw [← same] at permitted
          have resolved : Resolution (fun _ => False) db false next :=
            Resolution.fail inTable failed
          apply (recordFailed_adds failed permitted).trans
          apply ih (resolution_keys resolved keys)
          intro other later
          exact recordFailed_permits failed (permits other (List.mem_cons_of_mem jobId later))
      · exact AddsOnly.unchanged rfl rfl

theorem recoverStaleAttempts_adds (keys : Keys db) (now : Time) (staleAfter : Duration) (limit : Nat)
    (fresh : Uuid → FreshJob)
    (enabled : retriesEnabled db (.recoverStaleAttempts now staleAfter limit settings fresh)) :
    SparesDisabled db (recoverStaleAttempts db now staleAfter limit settings fresh).1 := by
  unfold recoverStaleAttempts
  split
  · exact AddsOnly.unchanged rfl rfl
  · split
    · exact AddsOnly.unchanged rfl rfl
    · rename_i staleBefore before
      split
      · exact AddsOnly.unchanged rfl rfl
      · have permits : ∀ jobId ∈ staleJobIds db staleBefore limit,
            Permits (fun domainId => isDisabled db domainId = false) settings db jobId := by
          rw [staleJobIds_eq]
          intro jobId member
          obtain ⟨attempt, stale, rfl⟩ := List.mem_map.mp member
          exact ⟨attempt, (mem_staleAttempts stale).1, rfl, enabled staleBefore before attempt stale⟩
        have pass := recoverEach_adds now fresh keys permits
        dsimp only
        split <;> rename_i equation <;> rw [equation] at pass <;> exact pass

end Recovery

section Runs

theorem storeStep_keys (crate : UrlCrate) (db : Database) (step : StoreStep) (keys : Keys db) :
    Keys (step.exec crate db) := by
  cases step with
  | transaction call => exact exec_keys crate db call keys
  | recoverStaleAttempts now staleAfter limit settings fresh =>
      obtain ⟨calls, _, same⟩ :=
        recoverStaleAttempts_run crate db now staleAfter limit settings fresh
      rw [StoreStep.exec, same]
      exact run_invariant (exec_keys crate) db calls keys

theorem storeStep_sparesDisabled (crate : UrlCrate) (db : Database) (step : StoreStep)
    (keys : Keys db) (enabled : retriesEnabled db step) :
    SparesDisabled db (step.exec crate db) := by
  cases step with
  | transaction call => exact exec_sparesDisabled crate keys enabled
  | recoverStaleAttempts now staleAfter limit settings fresh =>
      exact recoverStaleAttempts_adds keys now staleAfter limit fresh enabled

/-- In every run whose retries are all of enabled domains, no step queues a
crawl of a domain that is disabled at the time. For a transaction that commits,
in any run, the condition is exact. -/
theorem disabled_domains_get_no_work (crate : UrlCrate) (catalogue : Catalogue)
    (steps : List StoreStep) :
    (Guarded (StoreStep.exec crate) retriesEnabled (Database.initial catalogue) steps →
      Guarded (StoreStep.exec crate) (fun db step => SparesDisabled db (step.exec crate db))
        (Database.initial catalogue) steps) ∧
    ∀ call next,
      let db := run (StoreStep.exec crate) (Database.initial catalogue) steps
      transact crate db call = some next →
      (SparesDisabled db next ↔ retriesEnabled db (.transaction call)) := by
  constructor
  · intro enabled
    exact enabled.imp (storeStep_keys crate) (storeStep_sparesDisabled crate) (initial_keys catalogue)
  · intro call next db committed
    have keys : Keys db :=
      run_invariant (storeStep_keys crate) (Database.initial catalogue) steps (initial_keys catalogue)
    constructor
    · exact retriesEnabled_of_spares keys committed
    · intro enabled
      have spares := exec_sparesDisabled crate keys enabled
      rw [Store.exec, committed] at spares
      exact spares

/-- A crawl that a worker has claimed. -/
def claimedCrawl : List StoreStep :=
  [.transaction (.createWithAudit 1 exampleDomain DomainCreationDefaults.crawlPolicy
      "operator".toList 0),
    .transaction (.reserveDue 0 10 fun _ => ⟨1001, 101, 12⟩),
    .transaction (.claimAttempt (newJobWithCorrelation 1 12 101) 1)]

/-- The failure of that crawl, with retries left. -/
def failedCrawl : Call :=
  .recordFailure (newJobWithCorrelation 1 12 101) leaseExpired 3 .default ⟨1002, 102, 0⟩

def disableExample : StoreStep :=
  .transaction (.updatePolicy exampleDomain
    { isEnabled := false, priority := .medium, desiredIntervalHours := 24 } "operator".toList 2)

/-- An enabled domain is retried, and disabling it afterwards is respected. -/
theorem failedCrawl_spares :
    Guarded (StoreStep.exec plainUrlCrate)
      (fun db step => SparesDisabled db (step.exec plainUrlCrate db))
      (Database.initial Catalogue.empty)
      (claimedCrawl ++ [.transaction failedCrawl, disableExample]) := by
  apply (disabled_domains_get_no_work plainUrlCrate Catalogue.empty _).1
  refine ⟨?_, ?_, ?_, ?_, ?_, trivial⟩ <;> intro report reports <;> cases reports
  decide +kernel

/-- A domain disabled while its crawl runs is queued again when the crawl fails. -/
theorem failedCrawl_queues_disabled :
    let db := run (StoreStep.exec plainUrlCrate) (Database.initial Catalogue.empty)
      (claimedCrawl ++ [disableExample])
    isDisabled db 1 = true ∧
      ¬ SparesDisabled db ((StoreStep.transaction failedCrawl).exec plainUrlCrate db) := by
  decide +kernel

end Runs

end TechAtlas.Crawl
