import TechAtlas.Store.Calls

set_option autoImplicit false

/- What a committed transaction does to the crawl tables. A call is a sequence
of row-level moves, the resolution of one attempt or a publication report, and
invariants are proved once for each of these. -/
namespace TechAtlas.Store

open Library

variable {db next : Database} {names : Text → Prop}

section Inversion

theorem reserveDomain_eq_ok {now : Time} {fresh : FreshJob} {domainId : Uuid} {job : CrawlJobV1}
    (success : reserveDomain db now fresh domainId = .ok (next, job)) :
    let row := queuedAttempt fresh.attemptId
      (newJobWithCorrelation domainId fresh.correlationId fresh.jobId) 1 now now
    let post := unpublished fresh.attemptId
      (newJobWithCorrelation domainId fresh.correlationId fresh.jobId) now now
    admitsAttempt db.attempts row = true ∧ admitsOutbox db.outbox post = true ∧
      next = { db with
        attempts := db.attempts ++ [row]
        outbox := db.outbox ++ [post]
        policies := updateWhere (fun policy => policy.domainId == domainId)
          (PolicyRow.reservedAt now) db.policies } := by
  simp only [reserveDomain, bind_eq_ok, orError_eq_ok, Database.updatePolicy,
    insertAttemptAndOutbox_eq_some, updatePolicies_eq_some] at success
  obtain ⟨_, ⟨admitted, allowed, rfl⟩, _, ⟨_, rfl⟩, same⟩ := success
  cases same
  exact ⟨admitted, allowed, rfl⟩

theorem recordSucceeded_eq_ok {attempt : AttemptRow} {now : Time}
    (success : recordSucceeded db attempt now = .ok next) :
    (∀ row ∈ db.attempts, row.id = attempt.id → row.status.isTerminal = false) ∧
      next = { db with
        attempts := updateWhere (fun row => row.id == attempt.id) (AttemptRow.succeededAt now)
          db.attempts
        policies := updateWhere (fun policy => policy.domainId == attempt.domainId)
          (PolicyRow.succeededAt now) db.policies } := by
  simp only [recordSucceeded, bind_eq_ok, orError_eq_ok, Database.updatePolicy,
    updateAttempt_eq_some, updatePolicies_eq_some] at success
  obtain ⟨_, ⟨unresolved, rfl⟩, _, rfl⟩ := success
  exact ⟨fun row member same => (unresolved row member same).1, rfl⟩

/-- The two ends of a failed attempt: a retry after the delay, or the policy
giving up. -/
theorem recordFailed_eq_ok {attempt : AttemptRow} {failure : CrawlFailure} {now : Time}
    {settings : SchedulerSettings} {fresh : FreshJob}
    (success : recordFailed db attempt failure now settings fresh = .ok next) :
    (∀ row ∈ db.attempts, row.id = attempt.id →
      row.status.isTerminal = false ∧ (row.failedAt now failure).valid = true) ∧
    attempt.attemptNumber < 256 ∧
      ((∃ delay retryAt,
        let job := newJobWithCorrelation attempt.domainId attempt.correlationId fresh.jobId
        let row := queuedAttempt fresh.attemptId job (attempt.attemptNumber + 1) retryAt now
        let post := unpublished fresh.attemptId job retryAt now
        attempt.attemptNumber ≤ settings.maxCrawlRetries.toNat ∧
        settings.crawlRetryDelay (UInt8.ofNat attempt.attemptNumber) = some delay ∧
        checkedAdd now delay = some retryAt ∧
        admitsAttempt (updateWhere (fun row => row.id == attempt.id)
          (AttemptRow.failedAt now failure) db.attempts) row = true ∧
        admitsOutbox db.outbox post = true ∧
        next = { db with
          attempts := updateWhere (fun row => row.id == attempt.id)
            (AttemptRow.failedAt now failure) db.attempts ++ [row]
          outbox := db.outbox ++ [post]
          policies := updateWhere (fun policy => policy.domainId == attempt.domainId)
            (PolicyRow.retryingAt now retryAt) db.policies }) ∨
      (settings.maxCrawlRetries.toNat < attempt.attemptNumber ∧
        next = { db with
          attempts := updateWhere (fun row => row.id == attempt.id)
            (AttemptRow.failedAt now failure) db.attempts
          policies := updateWhere (fun policy => policy.domainId == attempt.domainId)
            (PolicyRow.gaveUpAt now) db.policies })) := by
  simp only [recordFailed, bind_eq_ok, orError_eq_ok, require_eq_ok, updateAttempt_eq_some,
    decide_eq_true_eq] at success
  obtain ⟨_, ⟨unresolved, rfl⟩, _, fits, branch⟩ := success
  refine ⟨unresolved, fits, ?_⟩
  split at branch
  · rename_i few
    simp only [bind_eq_ok, orError_eq_ok, Database.updatePolicy, insertAttemptAndOutbox_eq_some,
      updatePolicies_eq_some] at branch
    obtain ⟨delay, waits, retryAt, added, _, ⟨admitted, allowed, rfl⟩, _, rfl⟩ := branch
    exact Or.inl ⟨delay, retryAt, few, waits, added, admitted, allowed, rfl⟩
  · rename_i many
    simp only [orError_eq_ok, Database.updatePolicy, updatePolicies_eq_some] at branch
    obtain ⟨_, rfl⟩ := branch
    exact Or.inr ⟨Nat.lt_of_not_le many, rfl⟩

/-- The rows of `recordFailed_eq_ok`. -/
theorem recordFailed_cases {attempt : AttemptRow} {failure : CrawlFailure} {now : Time}
    {settings : SchedulerSettings} {fresh : FreshJob}
    (success : recordFailed db attempt failure now settings fresh = .ok next) :
    (∀ row ∈ db.attempts, row.id = attempt.id → row.status.isTerminal = false) ∧
      ((∃ retryAt,
        let job := newJobWithCorrelation attempt.domainId attempt.correlationId fresh.jobId
        let row := queuedAttempt fresh.attemptId job (attempt.attemptNumber + 1) retryAt now
        let post := unpublished fresh.attemptId job retryAt now
        attempt.attemptNumber ≤ settings.maxCrawlRetries.toNat ∧
        admitsAttempt (updateWhere (fun row => row.id == attempt.id)
          (AttemptRow.failedAt now failure) db.attempts) row = true ∧
        admitsOutbox db.outbox post = true ∧
        next = { db with
          attempts := updateWhere (fun row => row.id == attempt.id)
            (AttemptRow.failedAt now failure) db.attempts ++ [row]
          outbox := db.outbox ++ [post]
          policies := updateWhere (fun policy => policy.domainId == attempt.domainId)
            (PolicyRow.retryingAt now retryAt) db.policies }) ∨
      (settings.maxCrawlRetries.toNat < attempt.attemptNumber ∧
        next = { db with
          attempts := updateWhere (fun row => row.id == attempt.id)
            (AttemptRow.failedAt now failure) db.attempts
          policies := updateWhere (fun policy => policy.domainId == attempt.domainId)
            (PolicyRow.gaveUpAt now) db.policies })) := by
  obtain ⟨unresolved, _, retried | gaveUp⟩ := recordFailed_eq_ok success
  · obtain ⟨delay, retryAt, few, _, _, admitted, allowed, same⟩ := retried
    exact ⟨fun row member same => (unresolved row member same).1,
      Or.inl ⟨retryAt, few, admitted, allowed, same⟩⟩
  · exact ⟨fun row member same => (unresolved row member same).1, Or.inr gaveUp⟩

theorem insertCountry_eq_some {snapshotId : Uuid} {capturedAt : Time}
    {country : Option CountryObservation}
    (success : insertCountry db snapshotId capturedAt country = some next) :
    ∃ rows, next = { db with countryObservations := rows } := by
  cases country with
  | none =>
      simp only [insertCountry, Option.some.injEq] at success
      exact ⟨db.countryObservations, success.symm⟩
  | some country =>
      simp only [insertCountry, Option.map_eq_some_iff] at success
      obtain ⟨rows, _, rfl⟩ := success
      exact ⟨rows, rfl⟩

theorem insertArtifact_eq_some {snapshotId : Uuid} {capturedAt : Time}
    {artifact : Option RawArtifactMetadata}
    (success : insertArtifact db snapshotId capturedAt artifact = some next) :
    ∃ rows, next = { db with artifacts := rows } := by
  cases artifact with
  | none =>
      simp only [insertArtifact, Option.some.injEq] at success
      exact ⟨db.artifacts, success.symm⟩
  | some artifact =>
      simp only [insertArtifact, Option.map_eq_some_iff] at success
      obtain ⟨rows, _, rfl⟩ := success
      exact ⟨rows, rfl⟩

theorem persistSuccess_eq_ok {attempt : AttemptRow} {record : SuccessfulCrawlRecord}
    {fresh : FreshSnapshot} (success : persistSuccess db attempt record fresh = .ok next) :
    let capturedAt := record.snapshot.capturedAt
    let attempts := updateWhere (fun row => row.id == attempt.id)
      (AttemptRow.succeededAt capturedAt) db.attempts
    let row := snapshotRow attempt fresh.snapshotId record.snapshot
    (∀ row ∈ db.attempts, row.id = attempt.id → row.status.isTerminal = false) ∧
      admitsSnapshot attempts db.snapshots row = true ∧
      ∃ countries artifacts history,
        recordHistory db.catalogue attempt.domainId fresh record db.history = .ok history ∧
        next = { db with
          attempts := attempts
          snapshots := db.snapshots ++ [row]
          countryObservations := countries
          artifacts := artifacts
          history := history
          indexOutbox := pendIndex db.indexOutbox db.nextIndexId attempt.domainId capturedAt
          nextIndexId := db.nextIndexId + 1
          policies := updateWhere (fun policy => policy.domainId == attempt.domainId)
            (PolicyRow.succeededAt capturedAt) db.policies } := by
  simp only [persistSuccess, bind_eq_ok, orError_eq_ok, Database.updatePolicy,
    updateAttempt_eq_some, updatePolicies_eq_some, insertSnapshot, Option.map_eq_some_iff,
    insertChecked_eq_some] at success
  obtain ⟨_, ⟨unresolved, rfl⟩, _, ⟨_, ⟨admitted, rfl⟩, rfl⟩, withCountry, countryDone,
    withArtifact, artifactDone, history, recorded, _, rfl⟩ := success
  obtain ⟨countries, rfl⟩ := insertCountry_eq_some countryDone
  obtain ⟨artifacts, rfl⟩ := insertArtifact_eq_some artifactDone
  exact ⟨fun row member same => (unresolved row member same).1, admitted, countries, artifacts,
    history, recorded, rfl⟩

theorem retryTerminalAttempt_eq_ok {jobId : Uuid} {actorSubject : Text} {now : Time}
    {fresh : FreshJob}
    (success : retryTerminalAttempt db jobId actorSubject now fresh = .ok next) :
    ∃ attempt ∈ db.attempts, ∃ policy ∈ db.policies, ∃ events,
      let job := newJobWithCorrelation attempt.domainId attempt.correlationId fresh.jobId
      let row := queuedAttempt fresh.attemptId job (attempt.attemptNumber + 1) now now
      let post := unpublished fresh.attemptId job now now
      attempt.jobId = jobId ∧ attempt.status = .failed ∧ policy.domainId = attempt.domainId ∧
      policy.terminalFailureAt.isSome = true ∧
      admitsAttempt db.attempts row = true ∧ admitsOutbox db.outbox post = true ∧
      next = { db with
        attempts := db.attempts ++ [row]
        outbox := db.outbox ++ [post]
        policies := updateWhere (fun policy => policy.domainId == attempt.domainId)
          (PolicyRow.retriedAt now) db.policies
        auditEvents := events } := by
  simp only [retryTerminalAttempt, bind_eq_ok, orError_eq_ok, require_eq_ok, Database.updatePolicy,
    insertAttemptAndOutbox_eq_some, updatePolicies_eq_some, Bool.and_eq_true, beq_iff_eq]
    at success
  obtain ⟨⟨attempt, policy⟩, found, _, ⟨⟨failed, flagged⟩, _⟩, _, _, _,
    ⟨admitted, allowed, rfl⟩, _, ⟨_, rfl⟩, audited⟩ := success
  obtain ⟨member, selected, inPolicies, sameDomain⟩ := attemptWithPolicy_eq_some found
  have sameJob : attempt.jobId = jobId := by
    simp only [Bool.and_eq_true, beq_iff_eq] at selected
    exact selected.1
  exact ⟨attempt, member, policy, inPolicies, _, sameJob, failed, sameDomain, flagged, admitted,
    allowed, audit_eq_some audited⟩

end Inversion

/-- A change of a policy's schedule: the failure count stays and the terminal
flag is at most cleared. -/
structure Reschedules (change : PolicyRow → PolicyRow) : Prop where
  domainId : ∀ policy, (change policy).domainId = policy.domainId
  failures : ∀ policy,
    (change policy).consecutiveFailureCount = policy.consecutiveFailureCount
  flag : ∀ policy, (change policy).terminalFailureAt = none ∨
    (change policy).terminalFailureAt = policy.terminalFailureAt

/-- The tables of the crawl lifecycle. -/
structure CrawlTables where
  catalogue : Catalogue
  domains : List DomainRow
  policies : List PolicyRow
  attempts : List AttemptRow
  outbox : List OutboxRow
  snapshots : List SnapshotRow
  history : History
  indexOutbox : List IndexOutboxRow
  nextIndexId : Uuid

def Database.crawlTables (db : Database) : CrawlTables where
  catalogue := db.catalogue
  domains := db.domains
  policies := db.policies
  attempts := db.attempts
  outbox := db.outbox
  snapshots := db.snapshots
  history := db.history
  indexOutbox := db.indexOutbox
  nextIndexId := db.nextIndexId

def SameCrawl (db next : Database) : Prop := next.crawlTables = db.crawlTables

/-- Nor is a refresh requested. -/
structure Undisturbed (db next : Database) : Prop where
  crawl : SameCrawl db next
  refreshes : next.refreshRequests = db.refreshRequests

/-- A move resolves no attempt; a domain that it registers has one of the names
and no active domain has it yet. -/
inductive Move (names : Text → Prop) (db : Database) : Database → Prop
  | reserve {next : Database} {now : Time} {fresh : FreshJob} {domainId : Uuid} {job : CrawlJobV1}
      (known : ∃ policy ∈ db.policies, policy.domainId = domainId)
      (idle : db.hasActiveAttempt domainId = false)
      (success : reserveDomain db now fresh domainId = .ok (next, job)) : Move names db next
  | claim {next : Database} {attempt : AttemptRow} {startedAt : Time}
      (member : attempt ∈ db.attempts)
      (success : db.updateAttempt attempt.id (AttemptRow.claimedAt startedAt) = some next) :
      Move names db next
  | retry {next : Database} {jobId : Uuid} {actorSubject : Text} {now : Time} {fresh : FreshJob}
      (success : retryTerminalAttempt db jobId actorSubject now fresh = .ok next) : Move names db next
  | reschedule {next : Database} {selected : PolicyRow → Bool} {change : PolicyRow → PolicyRow}
      (keeps : Reschedules change)
      (same : SameCrawl { db with policies := updateWhere selected change db.policies } next)
      (checked : ∀ policy ∈ db.policies, selected policy = true → (change policy).valid = true) :
      Move names db next
  | register {next : Database} {domain : DomainRow} {policy : PolicyRow}
      (fresh : ∀ old ∈ db.policies, old.domainId ≠ policy.domainId)
      (unflagged : policy.terminalFailureAt = none) (unfailed : policy.consecutiveFailureCount = 0)
      (active : domain.id = policy.domainId ∧ domain.archivedAt = none)
      (named : names domain.canonicalDomain)
      (free : nameTaken db.domains domain.canonicalDomain = false)
      (same : SameCrawl { db with
        domains := db.domains ++ [domain]
        policies := db.policies ++ [policy] } next)
      (valid : policy.valid = true) : Move names db next

/-- The transactions that end an attempt; each is a call of its own. The flag
marks a success without a snapshot; a success with one stores one of the records. -/
inductive Resolution (records : SuccessfulCrawlRecord → Prop) (db : Database) :
    Bool → Database → Prop
  | succeed {next : Database} {attempt : AttemptRow} {record : SuccessfulCrawlRecord}
      {fresh : FreshSnapshot} (member : attempt ∈ db.attempts) (recorded : records record)
      (success : persistSuccess db attempt record fresh = .ok next) :
      Resolution records db false next
  | bare {next : Database} {attempt : AttemptRow} {now : Time} (member : attempt ∈ db.attempts)
      (success : recordSucceeded db attempt now = .ok next) : Resolution records db true next
  | fail {next : Database} {attempt : AttemptRow} {failure : CrawlFailure} {now : Time}
      {settings : SchedulerSettings} {fresh : FreshJob} (member : attempt ∈ db.attempts)
      (success : recordFailed db attempt failure now settings fresh = .ok next) :
      Resolution records db false next

/-- The one attempt a resolution ends: how its row changes, what is added to the
table, and whose policy is updated. -/
theorem resolution_rows {records : SuccessfulCrawlRecord → Prop} {bare : Bool}
    (resolution : Resolution records db bare next) :
    ∃ attempt ∈ db.attempts, ∃ change : AttemptRow → AttemptRow, ∃ added : List AttemptRow,
      ∃ policyChange : PolicyRow → PolicyRow,
      (∀ row ∈ db.attempts, row.id = attempt.id → row.status.isTerminal = false) ∧
      (change attempt).id = attempt.id ∧ (change attempt).domainId = attempt.domainId ∧
      (change attempt).status.isTerminal = true ∧
      (∀ row ∈ added, row.status = .queued) ∧
      next.attempts =
        updateWhere (fun row => row.id == attempt.id) change db.attempts ++ added ∧
      next.policies =
        updateWhere (fun policy => policy.domainId == attempt.domainId) policyChange
          db.policies := by
  cases resolution with
  | succeed member _ success =>
      obtain ⟨unresolved, _, _, _, _, _, rfl⟩ := persistSuccess_eq_ok success
      exact ⟨_, member, _, [], _, unresolved, rfl, rfl, rfl, by simp, (List.append_nil _).symm, rfl⟩
  | bare member success =>
      obtain ⟨unresolved, rfl⟩ := recordSucceeded_eq_ok success
      exact ⟨_, member, _, [], _, unresolved, rfl, rfl, rfl, by simp, (List.append_nil _).symm, rfl⟩
  | fail member success =>
      obtain ⟨unresolved, ⟨retryAt, _, _, _, rfl⟩ | ⟨_, rfl⟩⟩ := recordFailed_cases success
      · exact ⟨_, member, _, [_], _, unresolved, rfl, rfl, rfl, by simp [queuedAttempt], rfl, rfl⟩
      · exact ⟨_, member, _, [], _, unresolved, rfl, rfl, rfl, by simp, (List.append_nil _).symm,
          rfl⟩

abbrev Moves (names : Text → Prop) : Database → Database → Prop :=
  Relation.ReflTransGen (Move names)

/-- A move that queues nothing. -/
structure Adjustment (names : Text → Prop) (db next : Database) : Prop where
  move : Move names db next
  attempts : next.attempts = db.attempts
  outbox : next.outbox = db.outbox
  refreshes : next.refreshRequests = db.refreshRequests

abbrev Adjustments (names : Text → Prop) : Database → Database → Prop :=
  Relation.ReflTransGen (Adjustment names)

/-- The names under which a call may register domains. -/
def registers (crate : UrlCrate) : Call → Text → Prop
  | .createWithAudit _ domain _ _ _, name => name = domain.text
  | .importCsv command _ _ _, name => ∃ row ∈ command.rows, ∃ domain,
      CanonicalDomain.parse crate row.domain = .ok domain ∧ name = domain.text
  | _, _ => False

/-- The record a call may store. -/
def Call.records : Call → SuccessfulCrawlRecord → Prop
  | .recordSuccess _ record _, stored => stored = record
  | _, _ => False

/-- What a call does to the crawl tables. -/
inductive Effect (names : Text → Prop) (db : Database) (call : Call) : Database → Prop
  | moves {next : Database} (moves : Moves names db next) : Effect names db call next
  | resolution {next : Database}
      (resolution : Resolution call.records db call.isBareSuccess next) :
      Effect names db call next
  | publication {next : Database} {selected : OutboxRow → Bool} {change : OutboxRow → OutboxRow}
      (reports : call.isPublication = true)
      (same : next = { db with outbox := updateWhere selected change db.outbox })
      (keeps : ∀ row, (change row).jobId = row.jobId) : Effect names db call next

/-- A call that reports a failed crawl. -/
structure FailureReport where
  jobId : Uuid
  failure : CrawlFailure
  now : Time
  settings : SchedulerSettings
  fresh : FreshJob

def Call.failureReport : Call → Option FailureReport
  | .recordFailure job failure finishedAt settings fresh =>
      some ⟨job.jobId, failure, finishedAt, settings, fresh⟩
  | .recordAttemptOutcome jobId (.failed failure) now settings fresh =>
      some ⟨jobId, failure, now, settings, fresh⟩
  | _ => none

/-- The columns of a message that no statement updates. -/
structure Posting where
  crawlAttemptId : Uuid
  domainId : Uuid
  jobId : Uuid
  availableAt : Time

def OutboxRow.posting (row : OutboxRow) : Posting where
  crawlAttemptId := row.crawlAttemptId
  domainId := row.domainId
  jobId := row.jobId
  availableAt := row.availableAt

/-- What a call does, with its own arguments. -/
inductive Work (crate : UrlCrate) (db : Database) : Call → Database → Prop
  | adjust {call : Call} {next : Database}
      (adjustments : Adjustments (registers crate call) db next) : Work crate db call next
  | reserve {next : Database} {now : Time} {limit : Nat} {fresh : Uuid → FreshJob}
      {jobs : List CrawlJobV1} (success : reserveDue db now limit fresh = .ok (next, jobs)) :
      Work crate db (.reserveDue now limit fresh) next
  | publish {call : Call} {next : Database} {selected : OutboxRow → Bool}
      {change : OutboxRow → OutboxRow} (reports : call.isPublication = true)
      (same : next = { db with outbox := updateWhere selected change db.outbox })
      (keeps : ∀ row, (change row).posting = row.posting) : Work crate db call next
  | claim {next : Database} {job : CrawlJobV1} {startedAt : Time} {attempt : AttemptRow}
      (member : attempt ∈ db.attempts)
      (updated : db.updateAttempt attempt.id (AttemptRow.claimedAt startedAt) = some next) :
      Work crate db (.claimAttempt job startedAt) next
  | succeed {next : Database} {job : CrawlJobV1} {record : SuccessfulCrawlRecord}
      {fresh : FreshSnapshot} {attempt : AttemptRow} (member : attempt ∈ db.attempts)
      (success : persistSuccess db attempt record fresh = .ok next) :
      Work crate db (.recordSuccess job record fresh) next
  | bare {next : Database} {jobId : Uuid} {now : Time} {settings : SchedulerSettings}
      {fresh : FreshJob} {attempt : AttemptRow} (member : attempt ∈ db.attempts)
      (success : recordSucceeded db attempt now = .ok next) :
      Work crate db (.recordAttemptOutcome jobId .succeeded now settings fresh) next
  | fail {call : Call} {next : Database} {attempt : AttemptRow} (report : FailureReport)
      (reports : call.failureReport = some report) (member : attempt ∈ db.attempts)
      (sameJob : attempt.jobId = report.jobId)
      (success : recordFailed db attempt report.failure report.now report.settings report.fresh =
        .ok next) : Work crate db call next
  | retry {next : Database} {jobId : Uuid} {actorSubject : Text} {now : Time} {fresh : FreshJob}
      (success : retryTerminalAttempt db jobId actorSubject now fresh = .ok next) :
      Work crate db (.retryTerminalAttempt jobId actorSubject now fresh) next
  | refresh {next : Database} {domain : CanonicalDomain} {requestedAt : Time}
      {cooldown : Duration} {request : PublicRefreshRequest}
      (success : requestRefresh db domain requestedAt cooldown = .ok (next, request)) :
      Work crate db (.requestRefresh domain requestedAt cooldown) next

section Moves

theorem SameCrawl.refl (db : Database) : SameCrawl db db := rfl

theorem SameCrawl.trans {first second third : Database} (left : SameCrawl first second)
    (right : SameCrawl second third) : SameCrawl first third :=
  Eq.trans right left

theorem SameCrawl.attempts (same : SameCrawl db next) : next.attempts = db.attempts :=
  congrArg CrawlTables.attempts same

theorem SameCrawl.policies (same : SameCrawl db next) : next.policies = db.policies :=
  congrArg CrawlTables.policies same

theorem SameCrawl.outbox (same : SameCrawl db next) : next.outbox = db.outbox :=
  congrArg CrawlTables.outbox same

theorem SameCrawl.snapshots (same : SameCrawl db next) : next.snapshots = db.snapshots :=
  congrArg CrawlTables.snapshots same

theorem SameCrawl.domains (same : SameCrawl db next) : next.domains = db.domains :=
  congrArg CrawlTables.domains same

theorem SameCrawl.history (same : SameCrawl db next) : next.history = db.history :=
  congrArg CrawlTables.history same

theorem SameCrawl.catalogue (same : SameCrawl db next) : next.catalogue = db.catalogue :=
  congrArg CrawlTables.catalogue same

theorem SameCrawl.indexOutbox (same : SameCrawl db next) : next.indexOutbox = db.indexOutbox :=
  congrArg CrawlTables.indexOutbox same

theorem SameCrawl.nextIndexId (same : SameCrawl db next) : next.nextIndexId = db.nextIndexId :=
  congrArg CrawlTables.nextIndexId same

theorem reschedules_id : Reschedules id :=
  ⟨fun _ => rfl, fun _ => rfl, fun _ => Or.inr rfl⟩

theorem reschedules_scheduledAt (now : Time) : Reschedules (PolicyRow.scheduledAt now) :=
  ⟨fun _ => rfl, fun _ => rfl, fun _ => Or.inr rfl⟩

theorem reschedules_refreshedAt (now : Time) : Reschedules (PolicyRow.refreshedAt now) :=
  ⟨fun _ => rfl, fun _ => rfl, fun _ => Or.inl rfl⟩

theorem reschedules_updatedWith (policy : AdminCrawlPolicy) (now : Time) :
    Reschedules (PolicyRow.updatedWith policy now) :=
  ⟨fun _ => rfl, fun _ => rfl, fun _ => Or.inr rfl⟩

/-- A step outside the crawl lifecycle is a move that reschedules nothing. -/
theorem Move.quiet (same : SameCrawl db next) : Move names db next := by
  have unchanged : updateWhere (fun _ => false) id db.policies = db.policies := by
    simp [updateWhere]
  have kept : SameCrawl { db with
      policies := updateWhere (fun _ => false) id db.policies } next := by
    rw [SameCrawl, unchanged]
    exact same
  apply Move.reschedule reschedules_id kept
  intro policy _ selected
  cases selected

theorem Moves.single {db next : Database} (move : Move names db next) : Moves names db next :=
  Relation.ReflTransGen.single move

theorem Adjustments.single {db next : Database} (adjustment : Adjustment names db next) :
    Adjustments names db next :=
  Relation.ReflTransGen.single adjustment

theorem Undisturbed.refl (db : Database) : Undisturbed db db := ⟨rfl, rfl⟩

theorem Undisturbed.trans {first second third : Database} (left : Undisturbed first second)
    (right : Undisturbed second third) : Undisturbed first third :=
  ⟨left.crawl.trans right.crawl, right.refreshes.trans left.refreshes⟩

theorem Adjustments.quiet (same : Undisturbed db next) : Adjustments names db next :=
  Adjustments.single ⟨Move.quiet same.crawl, same.crawl.attempts, same.crawl.outbox, same.refreshes⟩

theorem Adjustments.moves {first last : Database} (adjustments : Adjustments names first last) :
    Moves names first last := by
  induction adjustments with
  | refl => exact Relation.ReflTransGen.refl
  | tail _ adjustment ih => exact ih.tail adjustment.move

theorem Adjustments.queue {first last : Database} (adjustments : Adjustments names first last) :
    last.attempts = first.attempts ∧ last.outbox = first.outbox := by
  induction adjustments with
  | refl => exact ⟨rfl, rfl⟩
  | tail _ adjustment ih =>
      exact ⟨adjustment.attempts.trans ih.1, adjustment.outbox.trans ih.2⟩

theorem Adjustments.refreshes {first last : Database} (adjustments : Adjustments names first last) :
    last.refreshRequests = first.refreshRequests := by
  induction adjustments with
  | refl => rfl
  | tail _ adjustment ih => exact adjustment.refreshes.trans ih

/-- What every move preserves, a sequence of moves preserves. -/
theorem Moves.invariant {P : Database → Prop} (preserved : ∀ db next, Move names db next → P db → P next)
    {first last : Database} (moves : Moves names first last) (start : P first) : P last := by
  induction moves with
  | refl => exact start
  | tail _ move ih => exact preserved _ _ move ih

theorem audit_undisturbed {event : AuditEvent} (success : db.audit event = some next) :
    Undisturbed db next := by
  rw [audit_eq_some success]
  exact ⟨rfl, rfl⟩

/-- The shape of every call that reschedules policies and then audits. -/
theorem reschedule_audit_adjusts {mid : Database} {selected : PolicyRow → Bool}
    {change : PolicyRow → PolicyRow} {event : AuditEvent} (keeps : Reschedules change)
    (updated : db.updatePolicies selected change = some mid)
    (audited : mid.audit event = some next) : Adjustments names db next := by
  obtain ⟨checked, rfl⟩ := updatePolicies_eq_some.mp updated
  have same := audit_undisturbed audited
  exact Adjustments.single ⟨Move.reschedule keeps same.crawl checked, same.crawl.attempts,
    same.crawl.outbox, same.refreshes⟩

end Moves

section Reserve

theorem hasActiveAttempt_append {row : AttemptRow} {domainId : Uuid} (attempts : List AttemptRow)
    (other : row.domainId ≠ domainId) :
    (attempts ++ [row]).any (AttemptRow.activeFor domainId) =
      attempts.any (AttemptRow.activeFor domainId) := by
  simp [List.any_append, AttemptRow.activeFor, other]

/-- The loop of `reserve_due` over distinct idle domains. -/
theorem reserveDomains_moves {now : Time} {fresh : Uuid → FreshJob} {domainIds : List Uuid}
    {jobs : List CrawlJobV1} (distinct : domainIds.Nodup)
    (known : ∀ domainId ∈ domainIds, ∃ policy ∈ db.policies, policy.domainId = domainId)
    (idle : ∀ domainId ∈ domainIds, db.hasActiveAttempt domainId = false)
    (success : reserveDomains now fresh db domainIds = .ok (next, jobs)) : Moves names db next := by
  induction domainIds generalizing db jobs with
  | nil =>
      simp only [reserveDomains, Except.ok.injEq, Prod.mk.injEq] at success
      rw [← success.1]
  | cons domainId rest ih =>
      simp only [reserveDomains, bind_eq_ok] at success
      obtain ⟨⟨mid, job⟩, reserved, ⟨last, more⟩, remaining, same⟩ := success
      cases same
      have first : Move names db mid := Move.reserve (known domainId List.mem_cons_self)
        (idle domainId List.mem_cons_self) reserved
      refine Relation.ReflTransGen.head first ?_
      obtain ⟨fresh_rest, distinct_rest⟩ := List.nodup_cons.mp distinct
      obtain ⟨_, _, rfl⟩ := reserveDomain_eq_ok reserved
      refine ih distinct_rest ?_ ?_ remaining
      · intro other member
        obtain ⟨policy, inPolicies, same⟩ := known other (List.mem_cons_of_mem domainId member)
        have different : policy.domainId ≠ domainId := by
          rw [same]
          exact fun equal => fresh_rest (equal ▸ member)
        exact ⟨policy, mem_updateWhere_of_not inPolicies (by simpa using different), same⟩
      · intro other member
        have different : domainId ≠ other := fun same => fresh_rest (same ▸ member)
        rw [Database.hasActiveAttempt, hasActiveAttempt_append db.attempts different]
        exact idle other (List.mem_cons_of_mem domainId member)

/-- What every reservation preserves, the whole loop preserves. -/
theorem reserveDomains_invariant {P : Database → Prop} {now : Time} {fresh : Uuid → FreshJob}
    {domainIds : List Uuid} {jobs : List CrawlJobV1}
    (preserved : ∀ db next domainId job,
      reserveDomain db now (fresh domainId) domainId = .ok (next, job) → P db → P next)
    (success : reserveDomains now fresh db domainIds = .ok (next, jobs)) (start : P db) :
    P next := by
  induction domainIds generalizing db jobs with
  | nil =>
      simp only [reserveDomains, Except.ok.injEq, Prod.mk.injEq] at success
      rw [← success.1]
      exact start
  | cons domainId rest ih =>
      simp only [reserveDomains, bind_eq_ok] at success
      obtain ⟨⟨mid, job⟩, reserved, ⟨last, more⟩, remaining, same⟩ := success
      cases same
      exact ih remaining (preserved db mid domainId job reserved start)

theorem reserveDue_invariant {P : Database → Prop} {now : Time} {limit : Nat}
    {fresh : Uuid → FreshJob} {jobs : List CrawlJobV1}
    (preserved : ∀ db next domainId job,
      reserveDomain db now (fresh domainId) domainId = .ok (next, job) → P db → P next)
    (success : reserveDue db now limit fresh = .ok (next, jobs)) (start : P db) : P next := by
  unfold reserveDue at success
  split at success
  · simp only [Except.ok.injEq, Prod.mk.injEq] at success
    rw [← success.1]
    exact start
  · split at success
    · cases success
    · exact reserveDomains_invariant preserved success start

theorem dueDomains_nodup {now : Time} {limit : Nat}
    (unique : (db.policies.map PolicyRow.domainId).Nodup) :
    (dueDomains db now limit).Nodup := by
  have sorted := List.perm_insertionSort (fun left right : PolicyRow => left.dueBefore right)
    (db.policies.filter (isDue db now))
  have kept : ((db.policies.filter (isDue db now)).map PolicyRow.domainId).Nodup :=
    unique.sublist (List.filter_sublist.map _)
  have whole := (sorted.map PolicyRow.domainId).nodup_iff.mpr kept
  exact whole.sublist ((List.take_sublist limit _).map _)

theorem dueDomains_due {now : Time} {limit : Nat} {domainId : Uuid}
    (member : domainId ∈ dueDomains db now limit) :
    ∃ policy ∈ db.policies, policy.domainId = domainId ∧ isDue db now policy = true := by
  obtain ⟨policy, taken, rfl⟩ := List.mem_map.mp member
  have sorted := List.mem_of_mem_take taken
  rw [List.mem_insertionSort, List.mem_filter] at sorted
  exact ⟨policy, sorted.1, rfl, sorted.2⟩

theorem isDue_idle {now : Time} {policy : PolicyRow} (due : isDue db now policy = true) :
    db.hasActiveAttempt policy.domainId = false := by
  simp only [isDue, Bool.and_eq_true, Bool.not_eq_true'] at due
  exact due.2

theorem reserveDue_moves {now : Time} {limit : Nat} {fresh : Uuid → FreshJob}
    {jobs : List CrawlJobV1} (unique : (db.policies.map PolicyRow.domainId).Nodup)
    (success : reserveDue db now limit fresh = .ok (next, jobs)) : Moves names db next := by
  unfold reserveDue at success
  split at success
  · simp only [Except.ok.injEq, Prod.mk.injEq] at success
    rw [← success.1]
  · split at success
    · cases success
    · refine reserveDomains_moves (dueDomains_nodup unique) ?_ ?_ success
      · intro domainId member
        obtain ⟨policy, inPolicies, same, _⟩ := dueDomains_due member
        exact ⟨policy, inPolicies, same⟩
      · intro domainId member
        obtain ⟨policy, _, rfl, due⟩ := dueDomains_due member
        exact isDue_idle due

end Reserve

section Resolve

theorem matchesJob_jobId {job : CrawlJobV1} {attempt : AttemptRow}
    (selected : attempt.matchesJob job = true) : attempt.jobId = job.jobId := by
  simp only [AttemptRow.matchesJob, Bool.and_eq_true, beq_iff_eq] at selected
  exact selected.1.1.1

theorem matchesJob_domainId {job : CrawlJobV1} {attempt : AttemptRow}
    (selected : attempt.matchesJob job = true) : attempt.domainId = job.domainId := by
  simp only [AttemptRow.matchesJob, Bool.and_eq_true, beq_iff_eq] at selected
  exact selected.1.1.2

theorem attemptWithDomain_eq_some {job : CrawlJobV1} {attempt : AttemptRow} {domain : DomainRow}
    (found : db.attemptWithDomain job = some (attempt, domain)) :
    attempt ∈ db.attempts ∧ attempt.matchesJob job = true ∧
      db.domainOf attempt.domainId = some domain := by
  obtain ⟨row, member, joined⟩ := List.exists_of_findSome?_eq_some found
  split at joined
  · rename_i selected
    obtain ⟨_, owner, same⟩ := Option.map_eq_some_iff.mp joined
    obtain ⟨rfl, rfl⟩ := Prod.mk.inj same
    exact ⟨member, selected, owner⟩
  · cases joined

/-- A message of a terminal attempt is only acknowledged; any other starts, or
starts again, the crawl. -/
theorem claimAttempt_cases {crate : UrlCrate} {job : CrawlJobV1} {startedAt : Time}
    {claimed : ClaimedCrawlAttempt}
    (success : claimAttempt crate db job startedAt = .ok (next, claimed)) :
    ∃ attempt ∈ db.attempts, attempt.matchesJob job = true ∧
      ((attempt.status.isTerminal = true ∧ claimed = .terminal ∧ next = db) ∨
        (attempt.status.isTerminal = false ∧ ∃ canonicalDomain, claimed = .ready canonicalDomain ∧
          db.updateAttempt attempt.id (AttemptRow.claimedAt startedAt) = some next)) := by
  simp only [claimAttempt, bind_eq_ok, orError_eq_ok] at success
  obtain ⟨⟨attempt, domain⟩, found, branch⟩ := success
  obtain ⟨member, selected, _⟩ := attemptWithDomain_eq_some found
  refine ⟨attempt, member, selected, ?_⟩
  split at branch
  · rename_i terminal
    cases branch
    exact Or.inl ⟨terminal, rfl, rfl⟩
  · rename_i unresolved
    split at branch
    · cases branch
    · simp only [bind_eq_ok, orError_eq_ok] at branch
      obtain ⟨mid, updated, same⟩ := branch
      cases same
      exact Or.inr ⟨by simpa using unresolved, _, rfl, updated⟩

/-- A repeated outcome changes nothing; a first one resolves the job's attempt. -/
theorem recordAttemptOutcome_cases {jobId : Uuid} {outcome : CrawlAttemptOutcome} {now : Time}
    {settings : SchedulerSettings} {fresh : FreshJob}
    (success : recordAttemptOutcome db jobId outcome now settings fresh = .ok next) :
    ∃ attempt ∈ db.attempts, attempt.jobId = jobId ∧
      ((attempt.status.isTerminal = true ∧ next = db) ∨
        (attempt.status.isTerminal = false ∧
          ((outcome = .succeeded ∧ recordSucceeded db attempt now = .ok next) ∨
            ∃ failure, outcome = .failed failure ∧
              recordFailed db attempt failure now settings fresh = .ok next))) := by
  simp only [recordAttemptOutcome, bind_eq_ok, orError_eq_ok] at success
  obtain ⟨⟨attempt, policy⟩, found, branch⟩ := success
  obtain ⟨member, selected, _, _⟩ := attemptWithPolicy_eq_some found
  refine ⟨attempt, member, by simpa using selected, ?_⟩
  split at branch
  · rename_i terminal
    cases branch
    exact Or.inl ⟨terminal, rfl⟩
  · rename_i unresolved
    refine Or.inr ⟨by simpa using unresolved, ?_⟩
    split at branch
    · exact Or.inl ⟨rfl, branch⟩
    · exact Or.inr ⟨_, rfl, branch⟩

theorem recordSuccess_cases {job : CrawlJobV1} {record : SuccessfulCrawlRecord}
    {fresh : FreshSnapshot} (success : recordSuccess db job record fresh = .ok next) :
    ∃ attempt ∈ db.attempts, attempt.jobId = job.jobId ∧
      ((attempt.status.isTerminal = true ∧ next = db) ∨
        persistSuccess db attempt record fresh = .ok next) := by
  simp only [recordSuccess, bind_eq_ok, orError_eq_ok] at success
  obtain ⟨⟨attempt, policy⟩, found, branch⟩ := success
  obtain ⟨member, selected, _, _⟩ := attemptWithPolicy_eq_some found
  refine ⟨attempt, member, matchesJob_jobId selected, ?_⟩
  split at branch
  · rename_i terminal
    cases branch
    exact Or.inl ⟨terminal, rfl⟩
  · exact Or.inr (mapError_eq_ok.mp branch)

/-- A report of an outcome changes nothing or resolves one attempt. -/
theorem recordAttemptOutcome_resolution {jobId : Uuid} {outcome : CrawlAttemptOutcome} {now : Time}
    {settings : SchedulerSettings} {fresh : FreshJob}
    (success : recordAttemptOutcome db jobId outcome now settings fresh = .ok next) :
    next = db ∨ ∃ records bare, Resolution records db bare next := by
  obtain ⟨attempt, member, _, ⟨_, rfl⟩ | ⟨_, ⟨rfl, bare⟩ | ⟨failure, rfl, failed⟩⟩⟩ :=
    recordAttemptOutcome_cases success
  · exact Or.inl rfl
  · exact Or.inr ⟨fun _ => False, true, Resolution.bare member bare⟩
  · exact Or.inr ⟨fun _ => False, false, Resolution.fail member failed⟩

theorem recordSuccess_resolution {job : CrawlJobV1} {record : SuccessfulCrawlRecord}
    {fresh : FreshSnapshot} (success : recordSuccess db job record fresh = .ok next) :
    next = db ∨ ∃ records bare, Resolution records db bare next := by
  obtain ⟨attempt, member, _, ⟨_, rfl⟩ | persisted⟩ := recordSuccess_cases success
  · exact Or.inl rfl
  · exact Or.inr ⟨Eq record, false, Resolution.succeed member rfl persisted⟩

theorem recordAttemptOutcome_work {crate : UrlCrate} {jobId : Uuid} {outcome : CrawlAttemptOutcome}
    {now : Time} {settings : SchedulerSettings} {fresh : FreshJob}
    (success : recordAttemptOutcome db jobId outcome now settings fresh = .ok next) :
    Work crate db (.recordAttemptOutcome jobId outcome now settings fresh) next := by
  obtain ⟨attempt, member, sameJob, ⟨_, rfl⟩ | ⟨_, ⟨rfl, bare⟩ | ⟨failure, rfl, failed⟩⟩⟩ :=
    recordAttemptOutcome_cases success
  · exact Work.adjust Relation.ReflTransGen.refl
  · exact Work.bare member bare
  · exact Work.fail _ rfl member sameJob failed

theorem recordFailure_work {crate : UrlCrate} {job : CrawlJobV1} {failure : CrawlFailure}
    {finishedAt : Time} {settings : SchedulerSettings} {fresh : FreshJob}
    (success : recordFailure db job failure finishedAt settings fresh = .ok next) :
    Work crate db (.recordFailure job failure finishedAt settings fresh) next := by
  obtain ⟨attempt, member, sameJob, ⟨_, rfl⟩ | ⟨_, ⟨bare, _⟩ | ⟨_, same, failed⟩⟩⟩ :=
    recordAttemptOutcome_cases (mapError_eq_ok.mp success)
  · exact Work.adjust Relation.ReflTransGen.refl
  · cases bare
  · cases same
    exact Work.fail _ rfl member sameJob failed

theorem recordSuccess_work {crate : UrlCrate} {job : CrawlJobV1} {record : SuccessfulCrawlRecord}
    {fresh : FreshSnapshot} (success : recordSuccess db job record fresh = .ok next) :
    Work crate db (.recordSuccess job record fresh) next := by
  obtain ⟨attempt, member, _, ⟨_, rfl⟩ | persisted⟩ := recordSuccess_cases success
  · exact Work.adjust Relation.ReflTransGen.refl
  · exact Work.succeed member persisted

theorem claimAttempt_work {crate : UrlCrate} {job : CrawlJobV1} {startedAt : Time}
    {claimed : ClaimedCrawlAttempt}
    (success : claimAttempt crate db job startedAt = .ok (next, claimed)) :
    Work crate db (.claimAttempt job startedAt) next := by
  obtain ⟨attempt, member, _, ⟨_, _, rfl⟩ | ⟨_, _, _, updated⟩⟩ := claimAttempt_cases success
  · exact Work.adjust Relation.ReflTransGen.refl
  · exact Work.claim member updated

end Resolve

section Requests

theorem requestDomainCrawl_adjusts {domain : CanonicalDomain} {actorSubject : Text} {now : Time}
    (success : requestDomainCrawl db domain actorSubject now = .ok next) : Adjustments names db next := by
  simp only [requestDomainCrawl, bind_eq_ok, orError_eq_ok, require_eq_ok] at success
  obtain ⟨policy, _, _, _, mid, updated, audited⟩ := success
  exact reschedule_audit_adjusts (reschedules_scheduledAt now) updated audited

/-- An accepted refresh is recorded and makes its domain due. -/
theorem requestRefresh_eq_ok {domain : CanonicalDomain} {requestedAt : Time} {cooldown : Duration}
    {request : PublicRefreshRequest}
    (success : requestRefresh db domain requestedAt cooldown = .ok (next, request)) :
    ∃ policy, db.activePolicy domain = some policy ∧ policy.isEnabled = true ∧
      checkCooldown (lastRequestedAt db policy.domainId) requestedAt cooldown = .ok () ∧
      (∀ row ∈ db.policies, (row.domainId == policy.domainId) = true →
        (row.refreshedAt requestedAt).valid = true) ∧
      next = { db with
        refreshRequests := db.refreshRequests ++
          [{ domainId := policy.domainId, requestedAt := requestedAt }]
        policies := updateWhere (fun row => row.domainId == policy.domainId)
          (PolicyRow.refreshedAt requestedAt) db.policies } := by
  simp only [requestRefresh, bind_eq_ok, orError_eq_ok, require_eq_ok, Database.updatePolicy,
    updatePolicies_eq_some] at success
  obtain ⟨_, _, policy, found, _, enabled, _, cooled, _, ⟨checked, rfl⟩, same⟩ := success
  cases same
  exact ⟨policy, found, enabled, cooled, checked, rfl⟩

theorem requestRefresh_move {domain : CanonicalDomain} {requestedAt : Time} {cooldown : Duration}
    {request : PublicRefreshRequest}
    (success : requestRefresh db domain requestedAt cooldown = .ok (next, request)) :
    Move names db next ∧ next.attempts = db.attempts ∧ next.outbox = db.outbox := by
  obtain ⟨policy, _, _, _, checked, rfl⟩ := requestRefresh_eq_ok success
  exact ⟨Move.reschedule (reschedules_refreshedAt requestedAt) rfl checked, rfl, rfl⟩

theorem scheduleCountryEnrichmentRecrawl_adjusts {actorSubject : Text} {now : Time} {count : Nat}
    (success : scheduleCountryEnrichmentRecrawl db actorSubject now = .ok (next, count)) :
    Adjustments names db next := by
  simp only [scheduleCountryEnrichmentRecrawl, bind_eq_ok, orError_eq_ok] at success
  obtain ⟨mid, updated, last, audited, same⟩ := success
  cases same
  exact reschedule_audit_adjusts (reschedules_scheduledAt now) updated audited

theorem scheduleImportBatchRecrawl_adjusts {importId : Uuid} {actorSubject : Text} {now : Time}
    {counts : AdminImportBatchRecrawl}
    (success : scheduleImportBatchRecrawl db importId actorSubject now = .ok (next, counts)) :
    Adjustments names db next := by
  simp only [scheduleImportBatchRecrawl, bind_eq_ok, orError_eq_ok, require_eq_ok] at success
  obtain ⟨_, _, mid, updated, _, _, last, audited, same⟩ := success
  cases same
  exact reschedule_audit_adjusts (reschedules_scheduledAt now) updated audited

theorem updatePolicy_adjusts {domain : CanonicalDomain} {policy : AdminCrawlPolicy}
    {actorSubject : Text} {now : Time}
    (success : updatePolicy db domain policy actorSubject now = .ok next) : Adjustments names db next := by
  simp only [updatePolicy, bind_eq_ok, orError_eq_ok] at success
  obtain ⟨row, _, mid, updated, audited⟩ := success
  exact reschedule_audit_adjusts (reschedules_updatedWith policy now) updated audited

end Requests

section Publication

theorem updateOutbox_eq_some {selected : OutboxRow → Bool} {change : OutboxRow → OutboxRow}
    (success : db.updateOutbox selected change = some next) :
    next = { db with outbox := updateWhere selected change db.outbox } := by
  simp only [Database.updateOutbox, Option.map_eq_some_iff, updateChecked_eq_some] at success
  obtain ⟨_, ⟨_, rfl⟩, rfl⟩ := success
  rfl

theorem markPublished_eq_ok {jobId : Uuid} {now : Time}
    (success : markPublished db jobId now = .ok next) :
    next = { db with
      outbox := updateWhere (fun row => row.jobId == jobId && row.isPending)
        (OutboxRow.publishedAtTime now) db.outbox } := by
  unfold markPublished at success
  simp only at success
  split at success
  · exact updateOutbox_eq_some (orError_eq_ok.mp success)
  · cases success

/-- A row that is still pending is postponed, or abandoned at the limit. -/
theorem recordPublishFailure_cases {jobId : Uuid} {now : Time} {settings : SchedulerSettings}
    (success : recordPublishFailure db jobId now settings = .ok next) :
    next = db ∨
      ∃ row ∈ db.outbox, row.jobId = jobId ∧ row.isPending = true ∧
        ((settings.maxOutboxPublishAttempts.toNat ≤ row.publishAttemptCount + 1 ∧
          next = { db with
            outbox := updateWhere (fun row => row.jobId == jobId) (OutboxRow.abandonedAt now)
              db.outbox }) ∨
        (row.publishAttemptCount + 1 < settings.maxOutboxPublishAttempts.toNat ∧
          ∃ nextPublishAt, next = { db with
            outbox := updateWhere (fun row => row.jobId == jobId)
              (OutboxRow.postponedTo now nextPublishAt) db.outbox })) := by
  simp only [recordPublishFailure, bind_eq_ok, orError_eq_ok] at success
  obtain ⟨row, found, branch⟩ := success
  obtain ⟨member, sameJob⟩ := find?_eq_some_mem found
  split at branch
  · cases branch
    exact Or.inl rfl
  · rename_i pending
    simp only [Bool.not_eq_true', Bool.not_eq_false] at pending
    refine Or.inr ⟨row, member, by simpa using sameJob, pending, ?_⟩
    simp only [bind_eq_ok, require_eq_ok] at branch
    obtain ⟨_, _, branch⟩ := branch
    split at branch
    · rename_i exhausted
      exact Or.inl ⟨exhausted, updateOutbox_eq_some (orError_eq_ok.mp branch)⟩
    · rename_i remaining
      simp only [bind_eq_ok, orError_eq_ok] at branch
      obtain ⟨_, _, nextPublishAt, _, updated⟩ := branch
      exact Or.inr ⟨Nat.lt_of_not_le remaining, nextPublishAt, updateOutbox_eq_some updated⟩

theorem markPublished_work {crate : UrlCrate} {jobId : Uuid} {now : Time}
    (success : markPublished db jobId now = .ok next) :
    Work crate db (.markPublished jobId now) next :=
  Work.publish rfl (markPublished_eq_ok success) fun _ => rfl

theorem recordPublishFailure_work {crate : UrlCrate} {jobId : Uuid} {now : Time}
    {settings : SchedulerSettings}
    (success : recordPublishFailure db jobId now settings = .ok next) :
    Work crate db (.recordPublishFailure jobId now settings) next := by
  rcases recordPublishFailure_cases success with rfl | ⟨row, _, _, _, abandoned | postponed⟩
  · exact Work.adjust Relation.ReflTransGen.refl
  · exact Work.publish rfl abandoned.2 fun _ => rfl
  · obtain ⟨_, nextPublishAt, same⟩ := postponed
    exact Work.publish rfl same fun _ => rfl

end Publication

section Registration

theorem insertDomainRows_eq_some {id : Uuid} {name : Text} {policy : CrawlPolicy} {now : Time}
    (success : insertDomainRows db id name policy now = some next) :
    (∀ old ∈ db.policies, old.domainId ≠ id) ∧ (∀ old ∈ db.domains, old.id ≠ id) ∧
      (newPolicy id policy now).valid = true ∧
      next = { db with
        domains := db.domains ++ [{ id := id, canonicalDomain := name, archivedAt := none }]
        policies := db.policies ++ [newPolicy id policy now] } := by
  simp only [insertDomainRows, Option.bind_eq_bind, Option.bind_eq_some_iff, insertChecked_eq_some,
    Bool.and_eq_true, List.all_eq_true, bne_iff_ne, Option.some.injEq] at success
  obtain ⟨_, ⟨⟨_, freshDomain⟩, rfl⟩, _, ⟨⟨valid, freshPolicy⟩, rfl⟩, rfl⟩ := success
  exact ⟨freshPolicy, freshDomain, valid, rfl⟩

theorem insertDomainRows_adjusts {mid : Database} {id : Uuid} {name : Text} {policy : CrawlPolicy}
    {now : Time} (named : names name) (free : nameTaken db.domains name = false)
    (success : insertDomainRows db id name policy now = some mid)
    (same : Undisturbed mid next) : Adjustment names db next := by
  obtain ⟨fresh, _, valid, rfl⟩ := insertDomainRows_eq_some success
  exact ⟨Move.register fresh rfl rfl ⟨rfl, rfl⟩ named free same.crawl valid, same.crawl.attempts,
    same.crawl.outbox, same.refreshes⟩

theorem createWithAudit_adjusts {crate : UrlCrate} {id : Uuid} {domain : CanonicalDomain}
    {policy : CrawlPolicy} {actorSubject : Text} {now : Time} {created : Domain}
    (named : names domain.text)
    (success : createWithAudit crate db id domain policy actorSubject now = .ok (next, created)) :
    Adjustments names db next := by
  simp only [createWithAudit, insertDomain, bind_eq_ok, orError_eq_ok, require_eq_ok] at success
  obtain ⟨⟨mid, domainRow⟩, ⟨_, free, stored, inserted, parsed⟩, last, audited, same⟩ := success
  cases same
  rw [Bool.not_eq_true'] at free
  split at parsed
  · cases parsed
  · cases parsed
    exact Adjustments.single (insertDomainRows_adjusts named free inserted (audit_undisturbed audited))

theorem insertRow_undisturbed {row : ImportRow} (success : insertRow db row = some next) :
    Undisturbed db next := by
  simp only [insertRow, Option.map_eq_some_iff] at success
  obtain ⟨_, _, rfl⟩ := success
  exact ⟨rfl, rfl⟩

theorem upsertSourceMembership_undisturbed (db : Database) (domainId sourceId : Uuid) :
    Undisturbed db (upsertSourceMembership db domainId sourceId) := by
  unfold upsertSourceMembership
  split
  · exact Undisturbed.refl db
  · exact ⟨rfl, rfl⟩

theorem importDomain_adjusts {sourceId id domainId : Uuid} {domain : CanonicalDomain}
    {policy : CrawlPolicy} {now : Time} {status : CsvImportRowStatus} (named : names domain.text)
    (success : importDomain db sourceId id domain policy now = some (next, domainId, status)) :
    Adjustments names db next := by
  simp only [importDomain, Option.bind_eq_bind, Option.bind_eq_some_iff, Option.some.injEq]
    at success
  obtain ⟨⟨mid, inserted⟩, added, ⟨found, _⟩, _, same⟩ := success
  cases same
  unfold insertDomainIfAbsent at added
  split at added
  · cases added
    exact Adjustments.quiet (upsertSourceMembership_undisturbed _ _ _)
  · rename_i free
    obtain ⟨stored, rows, same⟩ := Option.map_eq_some_iff.mp added
    cases same
    exact Adjustments.single (insertDomainRows_adjusts named (by simpa using free) rows
      (upsertSourceMembership_undisturbed _ _ _))

theorem processRow_adjusts {crate : UrlCrate} {policy : CrawlPolicy} {now : Time}
    {importId sourceId id : Uuid} {input : CsvImportRowInput} {row : ImportRow}
    (named : ∀ domain, CanonicalDomain.parse crate input.domain = .ok domain → names domain.text)
    (success : processRow crate policy now importId sourceId id db input = some (next, row)) :
    Adjustments names db next := by
  unfold processRow at success
  split at success
  · simp only [Option.bind_eq_bind, Option.bind_eq_some_iff, Option.some.injEq] at success
    obtain ⟨last, inserted, same⟩ := success
    cases same
    exact Adjustments.quiet (insertRow_undisturbed inserted)
  · rename_i domain parsed
    have accepted := named domain (mapError_eq_ok.mp parsed)
    simp only [Option.bind_eq_bind, Option.bind_eq_some_iff, Option.some.injEq] at success
    obtain ⟨⟨mid, domainId, status⟩, imported, last, inserted, same⟩ := success
    cases same
    exact (importDomain_adjusts accepted imported).trans (Adjustments.quiet (insertRow_undisturbed inserted))

theorem processRows_adjusts {crate : UrlCrate} {policy : CrawlPolicy} {now : Time}
    {importId sourceId : Uuid} {fresh : Nat → Uuid} {n : Nat} {inputs : List CsvImportRowInput}
    {rows : List ImportRow}
    (named : ∀ input ∈ inputs, ∀ domain,
      CanonicalDomain.parse crate input.domain = .ok domain → names domain.text)
    (success : processRows crate policy now importId sourceId fresh db n inputs =
      some (next, rows)) : Adjustments names db next := by
  induction inputs generalizing db n rows with
  | nil =>
      simp only [processRows, Option.some.injEq, Prod.mk.injEq] at success
      rw [← success.1]
  | cons input rest ih =>
      simp only [processRows, Option.bind_eq_bind, Option.bind_eq_some_iff, Option.some.injEq]
        at success
      obtain ⟨⟨mid, row⟩, first, ⟨last, more⟩, remaining, same⟩ := success
      cases same
      have namedRest : ∀ other ∈ rest, ∀ domain,
          CanonicalDomain.parse crate other.domain = .ok domain → names domain.text :=
        fun other member => named other (List.mem_cons_of_mem input member)
      exact (processRow_adjusts (named input List.mem_cons_self) first).trans (ih namedRest remaining)

theorem importCsv_adjusts {crate : UrlCrate} {command : CsvImportCommand} {policy : CrawlPolicy}
    {fresh : FreshImport} {now : Time} {rows : List ImportRow}
    (success : importCsv crate db command policy fresh now = some (next, rows)) :
    Adjustments (registers crate (.importCsv command policy fresh now)) db next := by
  simp only [importCsv, Option.bind_eq_bind, Option.bind_eq_some_iff, Option.some.injEq] at success
  obtain ⟨⟨first, sourceId⟩, sourced, second, created, ⟨third, found⟩, processed, fourth, completed,
    last, audited, same⟩ := success
  cases same
  have source : Undisturbed db first := by
    unfold findOrCreateSource at sourced
    split at sourced
    · cases sourced
      exact Undisturbed.refl db
    · obtain ⟨_, _, same⟩ := Option.map_eq_some_iff.mp sourced
      cases same
      exact ⟨rfl, rfl⟩
  have batch : Undisturbed first second := by
    simp only [createImport, Option.map_eq_some_iff] at created
    obtain ⟨_, _, rfl⟩ := created
    exact ⟨rfl, rfl⟩
  have finished : Undisturbed third fourth := by
    unfold completeImport at completed
    split at completed
    · cases completed
    · cases completed
      exact ⟨rfl, rfl⟩
  have named : ∀ input ∈ command.rows, ∀ domain,
      CanonicalDomain.parse crate input.domain = .ok domain →
      registers crate (.importCsv command policy fresh now) domain.text :=
    fun input member domain parsed => ⟨input, member, domain, parsed, rfl⟩
  exact (Adjustments.quiet (source.trans batch)).trans ((processRows_adjusts named processed).trans
    (Adjustments.quiet (finished.trans (audit_undisturbed audited))))

end Registration

theorem exec_work (crate : UrlCrate) (db : Database) (call : Call) :
    Work crate db call (exec crate db call) := by
  unfold exec
  cases committed : transact crate db call with
  | none => exact Work.adjust Relation.ReflTransGen.refl
  | some next =>
      simp only [Option.getD_some]
      cases call <;>
        simp only [transact, toOption_eq_some, map_eq_ok, Option.map_eq_some_iff, Prod.exists,
          exists_and_right, exists_eq_right] at committed
      case createWithAudit =>
        obtain ⟨created, success⟩ := committed
        refine Work.adjust (createWithAudit_adjusts ?_ success)
        rfl
      case importCsv => exact Work.adjust (importCsv_adjusts committed.choose_spec)
      case reserveDue => exact Work.reserve committed.choose_spec
      case markPublished => exact markPublished_work committed
      case recordPublishFailure => exact recordPublishFailure_work committed
      case claimAttempt => exact claimAttempt_work committed.choose_spec
      case recordSuccess => exact recordSuccess_work committed
      case recordFailure => exact recordFailure_work committed
      case recordAttemptOutcome => exact recordAttemptOutcome_work committed
      case retryTerminalAttempt => exact Work.retry committed
      case requestDomainCrawl => exact Work.adjust (requestDomainCrawl_adjusts committed)
      case requestRefresh => exact Work.refresh committed.choose_spec
      case scheduleCountryEnrichmentRecrawl =>
        exact Work.adjust (scheduleCountryEnrichmentRecrawl_adjusts committed.choose_spec)
      case scheduleImportBatchRecrawl =>
        exact Work.adjust (scheduleImportBatchRecrawl_adjusts committed.choose_spec)
      case updatePolicy => exact Work.adjust (updatePolicy_adjusts committed)

theorem isBareSuccess_of_failureReport {call : Call} {report : FailureReport}
    (reports : call.failureReport = some report) : call.isBareSuccess = false := by
  cases call <;> try rfl
  case recordAttemptOutcome jobId outcome now settings fresh =>
    cases outcome with
    | succeeded => cases reports
    | failed failure => rfl

theorem exec_effect {crate : UrlCrate} (unique : (db.policies.map PolicyRow.domainId).Nodup)
    (call : Call) : Effect (registers crate call) db call (exec crate db call) := by
  cases exec_work crate db call with
  | adjust adjustments => exact Effect.moves adjustments.moves
  | reserve success => exact Effect.moves (reserveDue_moves unique success)
  | publish reports same keeps =>
      exact Effect.publication reports same fun row => congrArg Posting.jobId (keeps row)
  | claim member updated => exact Effect.moves (Moves.single (Move.claim member updated))
  | succeed member success => exact Effect.resolution (Resolution.succeed member rfl success)
  | bare member success => exact Effect.resolution (Resolution.bare member success)
  | fail report reports member _ success =>
      refine Effect.resolution ?_
      rw [isBareSuccess_of_failureReport reports]
      exact Resolution.fail member success
  | retry success => exact Effect.moves (Moves.single (Move.retry success))
  | refresh success => exact Effect.moves (Moves.single (requestRefresh_move success).1)

section Records

/-- The tables that only a success with a snapshot writes, and those it reads. -/
structure SameRecords (db next : Database) : Prop where
  catalogue : next.catalogue = db.catalogue
  snapshots : next.snapshots = db.snapshots
  history : next.history = db.history
  outbox : next.indexOutbox = db.indexOutbox
  nextId : next.nextIndexId = db.nextIndexId

theorem SameRecords.refl (db : Database) : SameRecords db db := ⟨rfl, rfl, rfl, rfl, rfl⟩

theorem SameRecords.trans {first second third : Database} (left : SameRecords first second)
    (right : SameRecords second third) : SameRecords first third where
  catalogue := right.catalogue.trans left.catalogue
  snapshots := right.snapshots.trans left.snapshots
  history := right.history.trans left.history
  outbox := right.outbox.trans left.outbox
  nextId := right.nextId.trans left.nextId

theorem SameCrawl.records (same : SameCrawl db next) : SameRecords db next where
  catalogue := congrArg CrawlTables.catalogue same
  snapshots := congrArg CrawlTables.snapshots same
  history := congrArg CrawlTables.history same
  outbox := congrArg CrawlTables.indexOutbox same
  nextId := congrArg CrawlTables.nextIndexId same

theorem move_sameRecords {names : Text → Prop} (move : Move names db next) :
    SameRecords db next := by
  cases move with
  | reserve _ _ success =>
      obtain ⟨_, _, rfl⟩ := reserveDomain_eq_ok success
      exact ⟨rfl, rfl, rfl, rfl, rfl⟩
  | claim _ success =>
      obtain ⟨_, rfl⟩ := updateAttempt_eq_some.mp success
      exact ⟨rfl, rfl, rfl, rfl, rfl⟩
  | retry success =>
      obtain ⟨_, _, _, _, _, _, _, _, _, _, _, rfl⟩ := retryTerminalAttempt_eq_ok success
      exact ⟨rfl, rfl, rfl, rfl, rfl⟩
  | reschedule _ same =>
      have kept := same.records
      exact ⟨kept.catalogue, kept.snapshots, kept.history, kept.outbox, kept.nextId⟩
  | register _ _ _ _ _ _ same =>
      have kept := same.records
      exact ⟨kept.catalogue, kept.snapshots, kept.history, kept.outbox, kept.nextId⟩

/-- A resolution writes these tables exactly when it stores a record. -/
theorem resolution_records {records : SuccessfulCrawlRecord → Prop} {bare : Bool}
    (resolution : Resolution records db bare next) :
    SameRecords db next ∨ ∃ attempt ∈ db.attempts, ∃ record fresh, records record ∧
      persistSuccess db attempt record fresh = .ok next := by
  cases resolution with
  | succeed member recorded success => exact Or.inr ⟨_, member, _, _, recorded, success⟩
  | bare _ success =>
      obtain ⟨_, rfl⟩ := recordSucceeded_eq_ok success
      exact Or.inl ⟨rfl, rfl, rfl, rfl, rfl⟩
  | fail _ success =>
      obtain ⟨_, ⟨_, _, _, _, rfl⟩ | ⟨_, rfl⟩⟩ := recordFailed_cases success <;>
        exact Or.inl ⟨rfl, rfl, rfl, rfl, rfl⟩

theorem exec_records {crate : UrlCrate} (unique : (db.policies.map PolicyRow.domainId).Nodup)
    (call : Call) :
    SameRecords db (exec crate db call) ∨ ∃ attempt ∈ db.attempts, ∃ record fresh,
      call.records record ∧ persistSuccess db attempt record fresh = .ok (exec crate db call) := by
  cases exec_effect unique call with
  | moves moves =>
      refine Or.inl (moves.invariant ?_ (SameRecords.refl db))
      intro mid last move before
      exact before.trans (move_sameRecords move)
  | resolution resolution => exact resolution_records resolution
  | publication _ same _ =>
      rw [same]
      exact Or.inl ⟨rfl, rfl, rfl, rfl, rfl⟩

end Records

end TechAtlas.Store
