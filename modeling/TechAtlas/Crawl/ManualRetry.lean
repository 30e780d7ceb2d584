import TechAtlas.Crawl.Backoff

set_option autoImplicit false

/- Manual retries against the listing that offers them. The listing hides the
button once the domain has a later attempt; the transaction does not look. -/
namespace TechAtlas.Crawl

open Library Store

variable {crate : UrlCrate} {db next : Database}

section Requests

/-- A request of the API: an authenticated operator, the present time and
identifiers drawn for it. -/
structure Acceptable (db : Database) (actorSubject : Text) (now : Time) (fresh : FreshJob) :
    Prop where
  actor : (btrim actorSubject).isEmpty = false
  present : timestampInRange now = true
  created : ∀ policy ∈ db.policies, policy.createdAt ≤ now
  unused : Unused db fresh

instance (db : Database) (actorSubject : Text) (now : Time) (fresh : FreshJob) :
    Decidable (Acceptable db actorSubject now fresh) :=
  decidable_of_iff
    ((btrim actorSubject).isEmpty = false ∧ timestampInRange now = true ∧
      (∀ policy ∈ db.policies, policy.createdAt ≤ now) ∧ Unused db fresh)
    ⟨fun all => ⟨all.1, all.2.1, all.2.2.1, all.2.2.2⟩,
      fun request => ⟨request.actor, request.present, request.created, request.unused⟩⟩

/-- A terminal failure that an operator may repeat: what the transaction checks. -/
def isRepeatable (attempt : AttemptRow) (policy : PolicyRow) : Bool :=
  attempt.status == .failed && policy.terminalFailureAt.isSome &&
    !attempt.failureCode.any isUnretryable

/-- Failures are recorded for attempts whose number fits a `u8`. -/
def FailuresNarrow (db : Database) : Prop :=
  ∀ attempt ∈ db.attempts, attempt.status = .failed → attempt.attemptNumber < 256

theorem exec_failuresNarrow (crate : UrlCrate) (db : Database) (call : Call)
    (start : Keys db ∧ FailuresNarrow db) :
    Keys (exec crate db call) ∧ FailuresNarrow (exec crate db call) := by
  obtain ⟨keys, narrow⟩ := start
  refine ⟨exec_keys crate db call keys, ?_⟩
  intro ended inNext failed
  rcases exec_failure crate keys call with ⟨_, failures⟩ | ⟨report, _, attempt, member, success⟩
  · exact narrow ended (failures ended inNext failed) failed
  · obtain ⟨_, fits, _⟩ := recordFailed_eq_ok success
    obtain ⟨added, queued, attempts⟩ := recordFailed_attempts success
    rw [attempts] at inNext
    rcases List.mem_append.mp inNext with amended | new
    · rcases mem_updateWhere_cases amended with ⟨old, _⟩ | ⟨old, inTable, selected, rfl⟩
      · exact narrow ended old failed
      · have same := keys.attempt_eq inTable member (by simpa using selected)
        rw [same]
        exact fits
    · rw [queued ended new] at failed
      cases failed

theorem reached_failuresNarrow (crate : UrlCrate) (catalogue : Catalogue) (calls : List Call) :
    FailuresNarrow (reached crate catalogue calls) := by
  have start : Keys (Database.initial catalogue) ∧ FailuresNarrow (Database.initial catalogue) := by
    refine ⟨initial_keys catalogue, ?_⟩
    intro attempt member
    cases member
  exact (run_invariant (exec_failuresNarrow crate) (Database.initial catalogue) calls start).2

theorem retriedAt_valid {policy : PolicyRow} {now : Time} (valid : policy.valid = true)
    (present : timestampInRange now = true) (created : policy.createdAt ≤ now) :
    (policy.retriedAt now).valid = true := by
  simp only [PolicyRow.valid, Bool.and_eq_true, decide_eq_true_eq] at valid
  simp only [PolicyRow.valid, PolicyRow.retriedAt, notBefore_some, Option.all_some,
    Bool.and_eq_true, decide_eq_true_eq, present, created, valid, and_true, true_and]
  rfl

theorem exists_audit (event : AuditEvent) (reason : AdminOperationError)
    (named : (btrim event.actorSubject).isEmpty = false) :
    ∃ next, orError (db.audit event) reason = .ok next := by
  rw [Database.audit, named]
  exact ⟨_, rfl⟩

variable {attempt : AttemptRow} {policy : PolicyRow} {domain : DomainRow} {actorSubject : Text}
  {now : Time} {fresh : FreshJob}

/-- A request is granted exactly for a repeatable failure. -/
theorem retryTerminalAttempt_ok_iff (keys : Keys db) (valid : RowsValid db)
    (narrow : FailuresNarrow db) (member : attempt ∈ db.attempts)
    (owner : db.domainOf attempt.domainId = some domain)
    (joined : db.policyOf attempt.domainId = some policy)
    (request : Acceptable db actorSubject now fresh) :
    (∃ next, retryTerminalAttempt db attempt.jobId actorSubject now fresh = .ok next) ↔
      isRepeatable attempt policy = true := by
  obtain ⟨inPolicies, sameDomain⟩ := policyOf_eq_some joined
  have found : db.attemptWithPolicy (fun row =>
      row.jobId == attempt.jobId && (db.domainOf row.domainId).isSome) = some (attempt, policy) := by
    refine attemptWithPolicy_eq keys member inPolicies sameDomain (by simp [owner]) ?_
    intro row selected
    rw [Bool.and_eq_true, beq_iff_eq] at selected
    exact selected.1
  rw [retryTerminalAttempt, found]
  constructor
  · intro success
    obtain ⟨next, success⟩ := success
    simp only [bind_eq_ok, orError_eq_ok, require_eq_ok] at success
    obtain ⟨pair, same, _, repeatable, _⟩ := success
    cases same
    exact repeatable
  · intro repeatable
    have failed : attempt.status = .failed := by
      simp only [isRepeatable, Bool.and_eq_true, beq_iff_eq] at repeatable
      exact repeatable.1.1
    have fits := narrow attempt member failed
    obtain ⟨admitted, allowed⟩ := admits_retry
      (newJobWithCorrelation attempt.domainId attempt.correlationId fresh.jobId) fits
      (le_refl now) rfl rfl request.unused.attempts request.unused.outbox
    have rewritten : ∀ row ∈ db.policies, (row.domainId == policy.domainId) = true →
        (row.retriedAt now).valid = true :=
      (updatePolicy_valid_iff keys inPolicies).mpr
        (retriedAt_valid (valid.policies policy inPolicies) request.present
          (request.created policy inPolicies))
    rw [sameDomain] at rewritten
    refine exists_bind_ok rfl ?_
    refine exists_bind_ok (b := ()) (require_eq_ok.mpr repeatable) ?_
    refine exists_bind_ok (b := ()) (require_eq_ok.mpr (decide_eq_true (by omega))) ?_
    refine exists_bind_ok (orError_eq_ok.mpr
      (insertAttemptAndOutbox_eq_some.mpr ⟨admitted, allowed, rfl⟩)) ?_
    refine exists_bind_ok (orError_eq_ok.mpr (updatePolicies_eq_some.mpr ⟨rewritten, rfl⟩)) ?_
    exact exists_audit _ _ request.actor

end Requests

section Listing

variable {attempt : AttemptRow} {shown : AdminCrawlAttempt}

theorem retryState_eq_available {status : AttemptStatus} {code : Option Text}
    {terminal later : Bool} :
    retryState status code terminal later = .manualRetryAvailable ↔
      status = .failed ∧ terminal = true ∧ later = false ∧ code.any isUnretryable = false := by
  cases status <;> simp only [retryState, reduceCtorEq, false_and]
  cases later <;> cases terminal <;> cases code.any isUnretryable <;> simp

/-- The listing offers a retry of the repeatable failures that nothing came after. -/
theorem listedAttempt_eligible {domain : DomainRow} {policy : PolicyRow} {later : Bool} :
    (rowToAttempt attempt domain policy later).retryEligible = true ↔
      isRepeatable attempt policy = true ∧ later = false := by
  simp only [rowToAttempt, beq_iff_eq, retryState_eq_available, isRepeatable, Bool.and_eq_true,
    Bool.not_eq_true']
  constructor
  · intro offered
    exact ⟨⟨⟨offered.1, offered.2.1⟩, offered.2.2.2⟩, offered.2.2.1⟩
  · intro offered
    exact ⟨offered.1.1.1, offered.1.1.2, offered.2, offered.1.2⟩

/-- A row of the listing is that of the attempt with its job id. -/
theorem listed_of_mem {limit : Nat} {rows : List AdminCrawlAttempt} (keys : Keys db)
    (listed : crawlAttempts db limit = .ok rows) (inRows : shown ∈ rows)
    (member : attempt ∈ db.attempts) (same : shown.jobId = attempt.jobId) :
    ∃ domain policy, db.domainOf attempt.domainId = some domain ∧
      db.policyOf attempt.domainId = some policy ∧
      shown = rowToAttempt attempt domain policy (db.hasLaterAttempt attempt) := by
  unfold crawlAttempts at listed
  split at listed
  · cases listed
  · cases listed
    have sorted := List.mem_of_mem_take inRows
    rw [List.mem_insertionSort, List.mem_filterMap] at sorted
    obtain ⟨found, inTable, built⟩ := sorted
    obtain ⟨domain, owner, rest⟩ := Option.bind_eq_some_iff.mp built
    obtain ⟨policy, joined, rfl⟩ := Option.map_eq_some_iff.mp rest
    have sameRow := keys.attempt_eq_of_job inTable member same
    subst sameRow
    exact ⟨domain, policy, owner, joined, rfl⟩

end Listing

section Agreement

/-- The transaction would repeat a failure that a later attempt of its domain has
superseded. -/
def RepeatsSuperseded (db : Database) (attempt : AttemptRow) : Prop :=
  (∃ policy ∈ db.policies, policy.domainId = attempt.domainId ∧
    isRepeatable attempt policy = true) ∧ db.hasLaterAttempt attempt = true

instance (db : Database) (attempt : AttemptRow) : Decidable (RepeatsSuperseded db attempt) :=
  inferInstanceAs (Decidable ((∃ policy ∈ db.policies, policy.domainId = attempt.domainId ∧
    isRepeatable attempt policy = true) ∧ db.hasLaterAttempt attempt = true))

theorem retry_agrees_iff {attempt : AttemptRow} {shown : AdminCrawlAttempt} {limit : Nat}
    {rows : List AdminCrawlAttempt} {actorSubject : Text} {now : Time} {fresh : FreshJob}
    (keys : Keys db) (valid : RowsValid db) (narrow : FailuresNarrow db)
    (listed : crawlAttempts db limit = .ok rows) (inRows : shown ∈ rows)
    (member : attempt ∈ db.attempts) (same : shown.jobId = attempt.jobId)
    (request : Acceptable db actorSubject now fresh) :
    ((∃ next, retryTerminalAttempt db attempt.jobId actorSubject now fresh = .ok next) ↔
        shown.retryEligible = true) ↔ ¬ RepeatsSuperseded db attempt := by
  obtain ⟨domain, policy, owner, joined, rfl⟩ := listed_of_mem keys listed inRows member same
  obtain ⟨inPolicies, sameDomain⟩ := policyOf_eq_some joined
  rw [retryTerminalAttempt_ok_iff keys valid narrow member owner joined request,
    listedAttempt_eligible]
  have superseded : RepeatsSuperseded db attempt ↔
      isRepeatable attempt policy = true ∧ db.hasLaterAttempt attempt = true := by
    constructor
    · intro repeats
      obtain ⟨⟨other, inTable, own, repeatable⟩, later⟩ := repeats
      have samePolicy := eq_of_key_eq keys.policyKeys inTable inPolicies (own.trans sameDomain.symm)
      rw [samePolicy] at repeatable
      exact ⟨repeatable, later⟩
    · intro repeats
      exact ⟨⟨policy, inPolicies, sameDomain, repeats.1⟩, repeats.2⟩
  rw [superseded]
  cases isRepeatable attempt policy <;> cases db.hasLaterAttempt attempt <;> simp

/-- In every reachable store the transaction grants what the listing offers,
except for a repeatable failure that a later attempt has superseded; and in
every run whose manual retries come after the last attempt of their domain, no
correlation id has two attempts of one number. -/
theorem manual_retry_agrees_iff (crate : UrlCrate) (catalogue : Catalogue) (calls : List Call) :
    let db := reached crate catalogue calls
    (∀ attempt ∈ db.attempts, ∀ limit rows, crawlAttempts db limit = .ok rows →
      ∀ shown ∈ rows, shown.jobId = attempt.jobId →
      ∀ actorSubject now fresh, Acceptable db actorSubject now fresh →
      (((∃ next, retryTerminalAttempt db attempt.jobId actorSubject now fresh = .ok next) ↔
          shown.retryEligible = true) ↔ ¬ RepeatsSuperseded db attempt)) ∧
    (Guarded (exec crate) orderly (Database.initial catalogue) calls →
      (db.attempts.map fun attempt => (attempt.correlationId, attempt.attemptNumber)).Nodup) := by
  intro db
  have keys := reached_keys crate catalogue calls
  have valid := reached_rowsValid crate catalogue calls
  have narrow := reached_failuresNarrow crate catalogue calls
  constructor
  · intro attempt member limit rows listed shown inRows same actorSubject now fresh request
    exact retry_agrees_iff keys valid narrow listed inRows member same request
  · intro ordered
    have chains : Chains (fun _ _ => True) db :=
      run_chains (fun _ => True) (fun _ _ _ _ _ => trivial)
        (fun _ _ _ _ _ _ _ _ _ _ _ _ => trivial) (fun _ _ _ _ _ => trivial) catalogue calls
        (fun _ _ => trivial) ordered
    exact chains.keyed

/-- Four failures of one crawl, the last of which the settings allow. -/
def fourFailures : List Call := threeFailures ++ defaultRound 4

/-- The last failure is offered for a retry, and the retry is granted. -/
theorem fourFailures_last_granted :
    let db := reached plainUrlCrate Catalogue.empty fourFailures
    (∃ next, retryTerminalAttempt db 104 "operator".toList 50000000000 ⟨1005, 105, 0⟩ =
        .ok next) ∧
      (db.attempts.map fun attempt => (attempt.correlationId, attempt.attemptNumber)).Nodup := by
  obtain ⟨agrees, distinct⟩ := manual_retry_agrees_iff plainUrlCrate Catalogue.empty fourFailures
  refine ⟨?_, distinct (by decide +kernel)⟩
  have offered : (crawlAttempts (reached plainUrlCrate Catalogue.empty fourFailures) 100).toOption.any
      (fun rows => rows.any fun shown => shown.jobId == 104 && shown.retryEligible) = true := by
    decide +kernel
  obtain ⟨attempt, member, named, current⟩ :
      ∃ attempt ∈ (reached plainUrlCrate Catalogue.empty fourFailures).attempts,
        attempt.jobId = 104 ∧
          ¬ RepeatsSuperseded (reached plainUrlCrate Catalogue.empty fourFailures) attempt := by
    decide +kernel
  rw [Option.any_eq_true] at offered
  obtain ⟨rows, listed, offered⟩ := offered
  rw [List.any_eq_true] at offered
  obtain ⟨shown, inRows, offered⟩ := offered
  rw [Bool.and_eq_true, beq_iff_eq] at offered
  have granted := (agrees attempt member 100 rows (toOption_eq_some.mp listed) shown inRows
    (offered.1.trans named.symm) "operator".toList 50000000000 ⟨1005, 105, 0⟩
    (by decide +kernel)).mpr current
  rw [named] at granted
  exact granted.mpr offered.2

/-- The first failure is not offered, but its retry is granted as well, and the
crawl has two second attempts. -/
theorem fourFailures_first_granted :
    let db := reached plainUrlCrate Catalogue.empty fourFailures
    let request := Call.retryTerminalAttempt 101 "operator".toList 50000000000 ⟨1005, 105, 0⟩
    (crawlAttempts db 100).toOption.any (fun rows => rows.any fun shown =>
        shown.jobId == 101 && !shown.retryEligible) = true ∧
      (retryTerminalAttempt db 101 "operator".toList 50000000000 ⟨1005, 105, 0⟩).isOk = true ∧
      ¬ ((exec plainUrlCrate db request).attempts.map fun attempt =>
        (attempt.correlationId, attempt.attemptNumber)).Nodup := by
  decide +kernel

end Agreement

end TechAtlas.Crawl
