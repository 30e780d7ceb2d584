import TechAtlas.Store.Keys

set_option autoImplicit false

/- Duplicate and late deliveries. However often a job is reported, its attempt
is resolved once, and the snapshot, the retry and the failure count follow the
first report. -/
namespace TechAtlas.Crawl

open Library Store

variable {db next : Database} {crate : UrlCrate}

section Definitions

/-- The terminal attempts a step added to those of the store before it. -/
def resolvedBy (db next : Database) : List AttemptRow :=
  next.attempts.filter fun attempt => attempt.status.isTerminal && !db.attempts.contains attempt

/-- The attempts a run resolves, in commit order. -/
def resolutions (crate : UrlCrate) : Database → List Call → List AttemptRow
  | _, [] => []
  | db, call :: rest =>
      resolvedBy db (exec crate db call) ++ resolutions crate (exec crate db call) rest

/-- The failures of the domain after its last success in the log. -/
def failuresSinceSuccess (log : List AttemptRow) (domainId : Uuid) : Nat :=
  ((log.filter fun attempt => attempt.domainId == domainId).reverse.takeWhile fun attempt =>
    attempt.status != .succeeded).countP fun attempt => attempt.status == .failed

/-- The call reports a failure of the job. -/
def failsJob (jobId : Uuid) : Call → Bool
  | .recordFailure job _ _ _ _ => job.jobId == jobId
  | .recordAttemptOutcome failedJob (.failed _) _ _ _ => failedJob == jobId
  | _ => false

/-- The attempts that reports of the job's failure insert along a run. -/
def automaticRetries (crate : UrlCrate) (jobId : Uuid) : Database → List Call → Nat
  | _, [] => 0
  | db, call :: rest =>
      (if failsJob jobId call then (exec crate db call).attempts.length - db.attempts.length
        else 0) + automaticRetries crate jobId (exec crate db call) rest

end Definitions

section Terminal

/-- The two stores hold the same terminal attempts. -/
def SameTerminal (db next : Database) : Prop :=
  ∀ attempt : AttemptRow, attempt.status.isTerminal = true →
    (attempt ∈ next.attempts ↔ attempt ∈ db.attempts)

theorem sameTerminal_enqueue {row : AttemptRow} (queued : row.status = .queued)
    (attempts : next.attempts = db.attempts ++ [row]) : SameTerminal db next := by
  intro attempt terminal
  rw [attempts, List.mem_append, List.mem_singleton]
  constructor
  · intro member
    rcases member with old | rfl
    · exact old
    · rw [queued] at terminal
      cases terminal
  · intro old
    exact Or.inl old

theorem move_sameTerminal {names : Text → Prop} (move : Move names db next) : SameTerminal db next := by
  cases move with
  | reserve _ _ success =>
      obtain ⟨_, _, rfl⟩ := reserveDomain_eq_ok success
      exact sameTerminal_enqueue rfl rfl
  | claim member success =>
      obtain ⟨checked, rfl⟩ := updateAttempt_eq_some.mp success
      intro attempt terminal
      constructor
      · intro inNext
        rcases mem_updateWhere_cases inNext with ⟨old, _⟩ | ⟨old, _, _, rfl⟩
        · exact old
        · cases terminal
      · intro inTable
        refine mem_updateWhere_of_not inTable ?_
        rw [beq_eq_false_iff_ne]
        intro same
        rw [(checked attempt inTable same).1] at terminal
        cases terminal
  | retry success =>
      obtain ⟨_, _, _, _, _, _, _, _, _, _, _, rfl⟩ := retryTerminalAttempt_eq_ok success
      exact sameTerminal_enqueue rfl rfl
  | reschedule _ same =>
      intro attempt _
      rw [same.attempts]
  | register _ _ _ _ _ _ same =>
      intro attempt _
      rw [same.attempts]

theorem moves_sameTerminal {names : Text → Prop} (moves : Moves names db next) : SameTerminal db next := by
  induction moves with
  | refl => exact fun _ _ => Iff.rfl
  | tail _ move ih =>
      intro attempt terminal
      exact (move_sameTerminal move attempt terminal).trans (ih attempt terminal)

/-- A terminal attempt survives every call. -/
theorem exec_terminal (keys : Keys db) (call : Call) {attempt : AttemptRow}
    (terminal : attempt.status.isTerminal = true) (member : attempt ∈ db.attempts) :
    attempt ∈ (exec crate db call).attempts := by
  cases exec_effect keys.policyKeys call with
  | moves moves => exact (moves_sameTerminal moves attempt terminal).mpr member
  | resolution resolution =>
      obtain ⟨ended, _, change, added, _, unresolved, _, _, _, _, attempts, _⟩ :=
        resolution_rows resolution
      rw [attempts]
      refine List.mem_append_left _ (mem_updateWhere_of_not member ?_)
      rw [beq_eq_false_iff_ne]
      intro same
      rw [unresolved attempt member same] at terminal
      cases terminal
  | publication _ same _ =>
      rw [same]
      exact member

end Terminal

section Retries

/-- A report of the job's failure changes nothing, or fails the job's attempt. -/
theorem exec_failsJob (crate : UrlCrate) (db : Database) {jobId : Uuid} {call : Call}
    (fails : failsJob jobId call = true) :
    exec crate db call = db ∨
      ∃ attempt ∈ db.attempts, attempt.jobId = jobId ∧ attempt.status.isTerminal = false ∧
        ∃ failure now settings fresh,
          recordFailed db attempt failure now settings fresh = .ok (exec crate db call) := by
  have outcome : ∃ failure now settings fresh,
      exec crate db call =
        ((recordAttemptOutcome db jobId (.failed failure) now settings fresh).toOption).getD db := by
    unfold failsJob at fails
    split at fails
    · rename_i job failure now settings fresh
      refine ⟨failure, now, settings, fresh, ?_⟩
      have same : job.jobId = jobId := by simpa using fails
      subst same
      simp only [exec, transact, recordFailure]
      cases recordAttemptOutcome db job.jobId (.failed failure) now settings fresh <;> rfl
    · rename_i failedJob failure now settings fresh
      have same : failedJob = jobId := by simpa using fails
      subst same
      exact ⟨failure, now, settings, fresh, rfl⟩
    · cases fails
  obtain ⟨failure, now, settings, fresh, same⟩ := outcome
  rw [same]
  cases result : recordAttemptOutcome db jobId (.failed failure) now settings fresh with
  | error reason => exact Or.inl rfl
  | ok next =>
      obtain ⟨attempt, member, sameJob, ⟨_, unchanged⟩ | ⟨unresolved, ⟨bare, _⟩ | failed⟩⟩ :=
        recordAttemptOutcome_cases result
      · exact Or.inl unchanged
      · cases bare
      · obtain ⟨failure', _, success⟩ := failed
        exact Or.inr ⟨attempt, member, sameJob, unresolved, failure', now, settings, fresh, success⟩

theorem recordFailed_length {attempt : AttemptRow} {failure : CrawlFailure} {now : Time}
    {settings : SchedulerSettings} {fresh : FreshJob}
    (success : recordFailed db attempt failure now settings fresh = .ok next) :
    next.attempts.length ≤ db.attempts.length + 1 := by
  obtain ⟨_, ⟨retryAt, _, _, _, rfl⟩ | ⟨_, rfl⟩⟩ := recordFailed_cases success
  · simp
  · simp

theorem recordFailed_terminal {attempt : AttemptRow} {failure : CrawlFailure} {now : Time}
    {settings : SchedulerSettings} {fresh : FreshJob} (member : attempt ∈ db.attempts)
    (success : recordFailed db attempt failure now settings fresh = .ok next) :
    attempt.failedAt now failure ∈ next.attempts := by
  have changed : attempt.failedAt now failure ∈
      updateWhere (fun row => row.id == attempt.id) (AttemptRow.failedAt now failure)
        db.attempts :=
    mem_updateWhere_of_selected member (beq_self_eq_true _)
  obtain ⟨_, ⟨retryAt, _, _, _, rfl⟩ | ⟨_, rfl⟩⟩ := recordFailed_cases success
  · exact List.mem_append_left _ changed
  · exact changed

/-- Once the job's attempt is terminal, no report inserts another attempt. -/
theorem automaticRetries_of_terminal (crate : UrlCrate) {jobId : Uuid} (calls : List Call)
    (keys : Keys db) {attempt : AttemptRow} (member : attempt ∈ db.attempts)
    (sameJob : attempt.jobId = jobId) (terminal : attempt.status.isTerminal = true) :
    automaticRetries crate jobId db calls = 0 := by
  induction calls generalizing db with
  | nil => rfl
  | cons call rest ih =>
      have later := ih (exec_keys crate db call keys) (exec_terminal keys call terminal member)
      rw [automaticRetries, later]
      split
      · rename_i fails
        obtain unchanged | ⟨open', inTable, openJob, unresolved, _⟩ :=
          exec_failsJob crate db fails
        · rw [unchanged]
          omega
        · have same := keys.attempt_eq_of_job inTable member (openJob.trans sameJob.symm)
          rw [same, terminal] at unresolved
          cases unresolved
      · rfl

theorem automaticRetries_le_one (jobId : Uuid) (calls : List Call) (keys : Keys db) :
    automaticRetries crate jobId db calls ≤ 1 := by
  induction calls generalizing db with
  | nil => exact Nat.zero_le 1
  | cons call rest ih =>
      have later := ih (exec_keys crate db call keys)
      rw [automaticRetries]
      split
      · rename_i fails
        obtain unchanged | ⟨attempt, member, sameJob, _, failure, now, settings, fresh, success⟩ :=
          exec_failsJob crate db fails
        · rw [unchanged] at later ⊢
          omega
        · have bound := recordFailed_length success
          have none := automaticRetries_of_terminal crate rest (exec_keys crate db call keys)
            (recordFailed_terminal member success) sameJob rfl
          omega
      · omega

end Retries

section Log

variable {log : List AttemptRow} {domainId : Uuid}

theorem failuresSinceSuccess_of_other {entry : AttemptRow} (other : entry.domainId ≠ domainId) :
    failuresSinceSuccess (log ++ [entry]) domainId = failuresSinceSuccess log domainId := by
  simp [failuresSinceSuccess, other]

theorem failuresSinceSuccess_succeeded {entry : AttemptRow} (same : entry.domainId = domainId)
    (succeeded : entry.status = .succeeded) :
    failuresSinceSuccess (log ++ [entry]) domainId = 0 := by
  simp [failuresSinceSuccess, same, succeeded]

theorem failuresSinceSuccess_failed {entry : AttemptRow} (same : entry.domainId = domainId)
    (failed : entry.status = .failed) :
    failuresSinceSuccess (log ++ [entry]) domainId = failuresSinceSuccess log domainId + 1 := by
  simp [failuresSinceSuccess, same, failed]

theorem failuresSinceSuccess_of_absent (absent : ∀ entry ∈ log, entry.domainId ≠ domainId) :
    failuresSinceSuccess log domainId = 0 := by
  have empty : log.filter (fun attempt => attempt.domainId == domainId) = [] := by
    rw [List.filter_eq_nil_iff]
    intro entry member
    simpa using absent entry member
  rw [failuresSinceSuccess, empty]
  rfl

theorem resolvedBy_of_sameTerminal (same : SameTerminal db next) : resolvedBy db next = [] := by
  rw [resolvedBy, List.filter_eq_nil_iff]
  intro attempt member
  simp only [Bool.and_eq_true, Bool.not_eq_true', not_and, Bool.not_eq_false]
  intro terminal
  exact List.contains_iff_mem.mpr ((same attempt terminal).mp member)

/-- A resolution adds the changed row of its attempt to the log, and no other. -/
theorem resolvedBy_updateWhere {attempt : AttemptRow} (change : AttemptRow → AttemptRow)
    (added : List AttemptRow) (keys : Keys db) (member : attempt ∈ db.attempts)
    (unresolved : attempt.status.isTerminal = false) (keepsId : (change attempt).id = attempt.id)
    (terminal : (change attempt).status.isTerminal = true)
    (queued : ∀ row ∈ added, row.status = .queued)
    (attempts : next.attempts =
      updateWhere (fun row => row.id == attempt.id) change db.attempts ++ added) :
    resolvedBy db next = [change attempt] := by
  have fresh : change attempt ∉ db.attempts := by
    intro inTable
    have same := keys.attempt_eq inTable member keepsId
    rw [same, unresolved] at terminal
    cases terminal
  have none_added : added.filter (fun attempt =>
      attempt.status.isTerminal && !db.attempts.contains attempt) = [] := by
    rw [List.filter_eq_nil_iff]
    intro row inAdded
    rw [queued row inAdded]
    simp [AttemptStatus.isTerminal]
  rw [resolvedBy, attempts, List.filter_append, none_added, List.append_nil]
  apply filter_updateWhere_single keys.attemptIds member
  · simp [terminal, fresh]
  · intro other inTable
    simp [inTable]

end Log

section Snapshots

/-- One snapshot for each attempt that succeeded, none for the others. -/
structure SnapshotPerSuccess (db : Database) : Prop where
  counted : ∀ attempt ∈ db.attempts,
    db.snapshots.countP (fun snapshot => snapshot.crawlAttemptId == attempt.id) =
      if attempt.status = .succeeded then 1 else 0
  owned : ∀ snapshot ∈ db.snapshots, ∃ attempt ∈ db.attempts,
    attempt.id = snapshot.crawlAttemptId

theorem SnapshotPerSuccess.enqueue {row : AttemptRow} (books : SnapshotPerSuccess db)
    (attempts : next.attempts = db.attempts ++ [row]) (snapshots : next.snapshots = db.snapshots)
    (queued : row.status = .queued) (fresh : ∀ old ∈ db.attempts, old.id ≠ row.id) :
    SnapshotPerSuccess next := by
  constructor
  · intro attempt member
    rw [snapshots]
    rw [attempts, List.mem_append, List.mem_singleton] at member
    rcases member with old | rfl
    · exact books.counted attempt old
    · rw [queued, if_neg (by simp), List.countP_eq_zero]
      intro snapshot inSnapshots
      obtain ⟨owner, inTable, same⟩ := books.owned snapshot inSnapshots
      have different := fresh owner inTable
      rw [same] at different
      simpa using different
  · intro snapshot inSnapshots
    rw [snapshots] at inSnapshots
    obtain ⟨owner, inTable, same⟩ := books.owned snapshot inSnapshots
    exact ⟨owner, attempts ▸ List.mem_append_left _ inTable, same⟩

/-- A change of one attempt that neither finds nor leaves it succeeded. -/
theorem SnapshotPerSuccess.amend {id : Uuid} {change : AttemptRow → AttemptRow}
    (books : SnapshotPerSuccess db)
    (attempts : next.attempts = updateWhere (fun row => row.id == id) change db.attempts)
    (snapshots : next.snapshots = db.snapshots) (keepsId : ∀ row, (change row).id = row.id)
    (unresolved : ∀ row ∈ db.attempts, row.id = id → row.status.isTerminal = false)
    (unsuccessful : ∀ row, (change row).status ≠ .succeeded) : SnapshotPerSuccess next := by
  constructor
  · intro attempt member
    rw [attempts] at member
    rw [snapshots]
    rcases mem_updateWhere_cases member with ⟨old, _⟩ | ⟨old, inTable, selected, rfl⟩
    · exact books.counted attempt old
    · have open_ := unresolved old inTable (by simpa using selected)
      have before := books.counted old inTable
      rw [if_neg (by intro same; rw [same] at open_; cases open_)] at before
      rw [keepsId, if_neg (unsuccessful old)]
      exact before
  · intro snapshot inSnapshots
    rw [snapshots] at inSnapshots
    obtain ⟨owner, inTable, same⟩ := books.owned snapshot inSnapshots
    rw [attempts]
    by_cases selected : owner.id = id
    · exact ⟨change owner, mem_updateWhere_of_selected inTable (by simpa using selected),
        (keepsId owner).trans same⟩
    · exact ⟨owner, mem_updateWhere_of_not inTable (by simpa using selected), same⟩

theorem move_snapshotPerSuccess {names : Text → Prop} (move : Move names db next) (books : SnapshotPerSuccess db) :
    SnapshotPerSuccess next := by
  cases move with
  | reserve _ _ success =>
      obtain ⟨admitted, _, rfl⟩ := reserveDomain_eq_ok success
      exact books.enqueue rfl rfl rfl (admitsAttempt_fresh admitted)
  | claim member success =>
      obtain ⟨checked, rfl⟩ := updateAttempt_eq_some.mp success
      refine books.amend rfl rfl (fun _ => rfl) ?_ ?_
      · intro row inTable same
        exact (checked row inTable same).1
      · intro row same
        cases same
  | retry success =>
      obtain ⟨_, _, _, _, _, _, _, _, _, admitted, _, rfl⟩ := retryTerminalAttempt_eq_ok success
      exact books.enqueue rfl rfl rfl (admitsAttempt_fresh admitted)
  | reschedule _ same =>
      obtain ⟨counted, owned⟩ := books
      constructor <;> rw [same.attempts, same.snapshots]
      · exact counted
      · exact owned
  | register _ _ _ _ _ _ same =>
      obtain ⟨counted, owned⟩ := books
      constructor <;> rw [same.attempts, same.snapshots]
      · exact counted
      · exact owned

theorem persistSuccess_snapshotPerSuccess {attempt : AttemptRow} {record : SuccessfulCrawlRecord}
    {fresh : FreshSnapshot} (keys : Keys db) (books : SnapshotPerSuccess db)
    (member : attempt ∈ db.attempts)
    (success : persistSuccess db attempt record fresh = .ok next) : SnapshotPerSuccess next := by
  obtain ⟨unresolved, _, _, _, _, _, rfl⟩ := persistSuccess_eq_ok success
  have open_ := unresolved attempt member rfl
  have before := books.counted attempt member
  rw [if_neg (by intro same; rw [same] at open_; cases open_)] at before
  constructor
  · intro row inNext
    simp only [List.countP_append, List.countP_singleton, snapshotRow]
    rcases mem_updateWhere_cases inNext with ⟨old, other⟩ | ⟨old, inTable, selected, rfl⟩
    · have different : (attempt.id == row.id) = false := by
        rw [beq_eq_false_iff_ne]
        exact fun same => by simp [same] at other
      simp only [different, Bool.false_eq_true, if_false, Nat.add_zero]
      exact books.counted row old
    · have same := keys.attempt_eq inTable member (by simpa using selected)
      subst same
      simp [AttemptRow.succeededAt, before]
  · intro snapshot inNext
    rw [List.mem_append, List.mem_singleton] at inNext
    have changed : attempt.succeededAt record.snapshot.capturedAt ∈
        updateWhere (fun row => row.id == attempt.id)
          (AttemptRow.succeededAt record.snapshot.capturedAt) db.attempts :=
      mem_updateWhere_of_selected member (beq_self_eq_true _)
    rcases inNext with old | rfl
    · obtain ⟨owner, inTable, same⟩ := books.owned snapshot old
      by_cases selected : owner.id = attempt.id
      · exact ⟨_, changed, selected ▸ same⟩
      · exact ⟨owner, mem_updateWhere_of_not inTable (by simpa using selected), same⟩
    · exact ⟨_, changed, rfl⟩

theorem recordFailed_snapshotPerSuccess {attempt : AttemptRow} {failure : CrawlFailure}
    {now : Time} {settings : SchedulerSettings} {fresh : FreshJob}
    (books : SnapshotPerSuccess db)
    (success : recordFailed db attempt failure now settings fresh = .ok next) :
    SnapshotPerSuccess next := by
  obtain ⟨unresolved, ended⟩ := recordFailed_cases success
  have between : SnapshotPerSuccess { db with
      attempts := updateWhere (fun row => row.id == attempt.id)
        (AttemptRow.failedAt now failure) db.attempts } := by
    refine books.amend rfl rfl (fun _ => rfl) unresolved ?_
    intro row same
    cases same
  rcases ended with ⟨retryAt, _, admitted, _, rfl⟩ | ⟨_, rfl⟩
  · exact between.enqueue rfl rfl rfl (admitsAttempt_fresh admitted)
  · exact ⟨between.counted, between.owned⟩

theorem exec_snapshotPerSuccess {call : Call} (withSnapshot : call.isBareSuccess = false)
    (keys : Keys db) (books : SnapshotPerSuccess db) :
    SnapshotPerSuccess (exec crate db call) := by
  cases exec_effect keys.policyKeys call with
  | moves moves => exact moves.invariant (fun _ _ => move_snapshotPerSuccess) books
  | resolution resolution =>
      rw [withSnapshot] at resolution
      cases resolution with
      | succeed member _ success =>
          exact persistSuccess_snapshotPerSuccess keys books member success
      | fail member success => exact recordFailed_snapshotPerSuccess books success
  | publication _ same _ =>
      rw [same]
      exact ⟨books.counted, books.owned⟩

end Snapshots

section Failures

/-- The failure counts agree with the log of what has been resolved so far. -/
structure FailuresCounted (db : Database) (log : List AttemptRow) : Prop where
  logged : ∀ entry ∈ log, entry.domainId ∈ db.policies.map PolicyRow.domainId
  counted : ∀ policy ∈ db.policies,
    policy.consecutiveFailureCount = failuresSinceSuccess log policy.domainId

variable {log : List AttemptRow}

theorem FailuresCounted.keep {selected : PolicyRow → Bool} {change : PolicyRow → PolicyRow}
    (books : FailuresCounted db log)
    (policies : next.policies = updateWhere selected change db.policies)
    (keepsDomain : ∀ policy, (change policy).domainId = policy.domainId)
    (keepsCount : ∀ policy,
      (change policy).consecutiveFailureCount = policy.consecutiveFailureCount) :
    FailuresCounted next log := by
  constructor
  · rw [policies, updateWhere_map PolicyRow.domainId keepsDomain]
    exact books.logged
  · intro policy inNext
    rw [policies] at inNext
    rcases mem_updateWhere_cases inNext with ⟨old, _⟩ | ⟨old, inTable, _, rfl⟩
    · exact books.counted policy old
    · rw [keepsCount, keepsDomain]
      exact books.counted old inTable

theorem move_failuresCounted {names : Text → Prop} (move : Move names db next) (books : FailuresCounted db log) :
    FailuresCounted next log := by
  cases move with
  | reserve _ _ success =>
      obtain ⟨_, _, rfl⟩ := reserveDomain_eq_ok success
      exact books.keep rfl (fun _ => rfl) (fun _ => rfl)
  | claim member success =>
      obtain ⟨_, rfl⟩ := updateAttempt_eq_some.mp success
      exact ⟨books.logged, books.counted⟩
  | retry success =>
      obtain ⟨_, _, _, _, _, _, _, _, _, _, _, rfl⟩ := retryTerminalAttempt_eq_ok success
      exact books.keep rfl (fun _ => rfl) (fun _ => rfl)
  | reschedule keeps same => exact books.keep same.policies keeps.domainId keeps.failures
  | @register _ added fresh _ unfailed _ _ _ same =>
      constructor
      · intro entry member
        rw [same.policies, List.map_append]
        exact List.mem_append_left _ (books.logged entry member)
      · intro policy inNext
        rw [same.policies, List.mem_append, List.mem_singleton] at inNext
        rcases inNext with old | rfl
        · exact books.counted policy old
        · rw [unfailed, failuresSinceSuccess_of_absent]
          intro entry member equal
          obtain ⟨old, inTable, same⟩ := List.mem_map.mp (books.logged entry member)
          exact fresh old inTable (same.trans equal)

/-- The policy update of a resolution follows the entry it adds to the log. -/
theorem FailuresCounted.resolve {entry : AttemptRow} {change : PolicyRow → PolicyRow}
    (books : FailuresCounted db log)
    (policies : next.policies =
      updateWhere (fun policy => policy.domainId == entry.domainId) change db.policies)
    (known : entry.domainId ∈ db.policies.map PolicyRow.domainId)
    (keepsDomain : ∀ policy, (change policy).domainId = policy.domainId)
    (follows : ∀ policy, policy.consecutiveFailureCount = failuresSinceSuccess log entry.domainId →
      (change policy).consecutiveFailureCount =
        failuresSinceSuccess (log ++ [entry]) entry.domainId) :
    FailuresCounted next (log ++ [entry]) := by
  constructor
  · rw [policies, updateWhere_map PolicyRow.domainId keepsDomain]
    intro other member
    rw [List.mem_append, List.mem_singleton] at member
    rcases member with old | rfl
    · exact books.logged other old
    · exact known
  · intro policy inNext
    rw [policies] at inNext
    rcases mem_updateWhere_cases inNext with ⟨old, other⟩ | ⟨old, inTable, selected, rfl⟩
    · rw [failuresSinceSuccess_of_other (by
        intro same
        simp [same] at other)]
      exact books.counted policy old
    · have same : old.domainId = entry.domainId := by simpa using selected
      rw [keepsDomain, same]
      exact follows old (same ▸ books.counted old inTable)

theorem resolution_failuresCounted {records : SuccessfulCrawlRecord → Prop} {bare : Bool}
    (resolution : Resolution records db bare next)
    (keys : Keys db) (books : FailuresCounted db log) :
    FailuresCounted next (log ++ resolvedBy db next) := by
  cases resolution with
  | @succeed _ attempt record fresh member _ success =>
      obtain ⟨unresolved, _, _, _, _, _, rfl⟩ := persistSuccess_eq_ok success
      rw [resolvedBy_updateWhere (AttemptRow.succeededAt record.snapshot.capturedAt) [] keys member
        (unresolved attempt member rfl) rfl rfl (by simp) (List.append_nil _).symm]
      refine books.resolve rfl (keys.known attempt member) (fun _ => rfl) ?_
      intro policy _
      exact (failuresSinceSuccess_succeeded rfl rfl).symm
  | @bare _ attempt now member success =>
      obtain ⟨unresolved, rfl⟩ := recordSucceeded_eq_ok success
      rw [resolvedBy_updateWhere (AttemptRow.succeededAt now) [] keys member
        (unresolved attempt member rfl) rfl rfl (by simp) (List.append_nil _).symm]
      refine books.resolve rfl (keys.known attempt member) (fun _ => rfl) ?_
      intro policy _
      exact (failuresSinceSuccess_succeeded rfl rfl).symm
  | @fail _ attempt failure now settings fresh member success =>
      obtain ⟨unresolved, ended⟩ := recordFailed_cases success
      have counts : ∀ policy : PolicyRow,
          policy.consecutiveFailureCount = failuresSinceSuccess log attempt.domainId →
          policy.consecutiveFailureCount + 1 = failuresSinceSuccess
            (log ++ [attempt.failedAt now failure]) (attempt.failedAt now failure).domainId := by
        intro policy same
        rw [failuresSinceSuccess_failed rfl rfl, same]
        rfl
      rcases ended with ⟨retryAt, _, _, _, rfl⟩ | ⟨_, rfl⟩
      · rw [resolvedBy_updateWhere (AttemptRow.failedAt now failure) [_] keys member
          (unresolved attempt member rfl) rfl rfl (by simp [queuedAttempt]) rfl]
        exact books.resolve rfl (keys.known attempt member) (fun _ => rfl) counts
      · rw [resolvedBy_updateWhere (AttemptRow.failedAt now failure) [] keys member
          (unresolved attempt member rfl) rfl rfl (by simp) (List.append_nil _).symm]
        exact books.resolve rfl (keys.known attempt member) (fun _ => rfl) counts

theorem exec_failuresCounted (call : Call) (keys : Keys db) (books : FailuresCounted db log) :
    FailuresCounted (exec crate db call) (log ++ resolvedBy db (exec crate db call)) := by
  cases exec_effect keys.policyKeys call with
  | moves moves =>
      rw [resolvedBy_of_sameTerminal (moves_sameTerminal moves), List.append_nil]
      exact moves.invariant (fun _ _ => move_failuresCounted) books
  | resolution resolution => exact resolution_failuresCounted resolution keys books
  | publication _ same _ =>
      have unresolved : SameTerminal db (exec crate db call) := by
        intro attempt _
        rw [same]
      rw [resolvedBy_of_sameTerminal unresolved, List.append_nil, same]
      exact ⟨books.logged, books.counted⟩

end Failures

section Runs

theorem reached_keys (crate : UrlCrate) (catalogue : Catalogue) (calls : List Call) :
    Keys (reached crate catalogue calls) :=
  run_invariant (exec_keys crate) (Database.initial catalogue) calls (initial_keys catalogue)

theorem run_terminal {calls : List Call} {attempt : AttemptRow} (keys : Keys db)
    (terminal : attempt.status.isTerminal = true) (member : attempt ∈ db.attempts) :
    attempt ∈ (run (exec crate) db calls).attempts := by
  induction calls generalizing db with
  | nil => exact member
  | cons call rest ih =>
      exact ih (exec_keys crate db call keys) (exec_terminal keys call terminal member)

theorem initial_snapshotPerSuccess (catalogue : Catalogue) :
    SnapshotPerSuccess (Database.initial catalogue) := by
  constructor
  · intro attempt member
    cases member
  · intro snapshot member
    cases member

theorem initial_failuresCounted (catalogue : Catalogue) :
    FailuresCounted (Database.initial catalogue) [] := by
  constructor
  · intro entry member
    cases member
  · intro policy member
    cases member

theorem run_failuresCounted (crate : UrlCrate) (calls : List Call) {log : List AttemptRow} (keys : Keys db)
    (books : FailuresCounted db log) :
    FailuresCounted (run (exec crate) db calls) (log ++ resolutions crate db calls) := by
  induction calls generalizing db log with
  | nil => simpa [resolutions] using books
  | cons call rest ih =>
      have step := ih (exec_keys crate db call keys) (exec_failuresCounted call keys books)
      rw [resolutions, ← List.append_assoc]
      exact step

theorem run_snapshotPerSuccess (crate : UrlCrate) {calls : List Call} (keys : Keys db)
    (withSnapshot : ∀ call ∈ calls, call.isBareSuccess = false)
    (books : SnapshotPerSuccess db) : SnapshotPerSuccess (run (exec crate) db calls) := by
  have guarded := guarded_of_forall (exec crate) db calls withSnapshot
  refine (run_invariant_of_guarded (P := fun db => Keys db ∧ SnapshotPerSuccess db) ?_ db calls
    guarded ⟨keys, books⟩).2
  intro state call allowed both
  exact ⟨exec_keys crate state call both.1, exec_snapshotPerSuccess allowed both.1 both.2⟩

/-- For any interleaving of deliveries and recoveries: a resolved attempt never
changes, a success has its one snapshot, a failure at most one automatic retry,
and the failure count is that of the failures since the last success. -/
theorem attempts_resolved_once (crate : UrlCrate) (catalogue : Catalogue) (calls : List Call)
    (withSnapshot : ∀ call ∈ calls, call.isBareSuccess = false) :
    (∀ before after, calls = before ++ after →
      ∀ attempt ∈ (reached crate catalogue before).attempts,
        attempt.status = .succeeded ∨ attempt.status = .failed →
        attempt ∈ (reached crate catalogue calls).attempts ∧
          ∀ row ∈ (reached crate catalogue calls).attempts, row.id = attempt.id →
            row.status = attempt.status) ∧
    (∀ attempt ∈ (reached crate catalogue calls).attempts,
      ((reached crate catalogue calls).snapshots.filter fun snapshot =>
        snapshot.crawlAttemptId == attempt.id).length =
          if attempt.status = .succeeded then 1 else 0) ∧
    (∀ jobId, automaticRetries crate jobId (Database.initial catalogue) calls ≤ 1) ∧
    ∀ policy ∈ (reached crate catalogue calls).policies,
      policy.consecutiveFailureCount =
        failuresSinceSuccess (resolutions crate (Database.initial catalogue) calls)
          policy.domainId := by
  have keys := reached_keys crate catalogue calls
  refine ⟨?_, ?_, ?_, ?_⟩
  · intro before after split attempt member resolved
    have terminal : attempt.status.isTerminal = true := by
      rcases resolved with same | same <;> rw [same] <;> rfl
    have survives : attempt ∈ (reached crate catalogue calls).attempts := by
      rw [split, reached, run_append]
      exact run_terminal (reached_keys crate catalogue before) terminal member
    refine ⟨survives, ?_⟩
    intro row inTable same
    rw [keys.attempt_eq inTable survives same]
  · intro attempt member
    rw [← List.countP_eq_length_filter]
    have books := run_snapshotPerSuccess crate (initial_keys catalogue) withSnapshot
      (initial_snapshotPerSuccess catalogue)
    exact books.counted attempt member
  · intro jobId
    exact automaticRetries_le_one jobId calls (initial_keys catalogue)
  · have books := run_failuresCounted crate calls (initial_keys catalogue)
      (initial_failuresCounted catalogue)
    exact books.counted

/-- A crawl that fails, is reported twice, and succeeds on its retry. -/
def retriedCrawl : List Call :=
  let domain := exampleDomain
  let failure : CrawlFailure := leaseExpired
  let first : CrawlJobV1 := newJobWithCorrelation 1 12 11
  let second : CrawlJobV1 := newJobWithCorrelation 1 12 21
  let record : SuccessfulCrawlRecord := {
    snapshot := {
      requestedUrl := "https://example.com/".toList
      finalUrl := "https://example.com/".toList
      redirects := []
      responseStatus := 200
      responseHeaders := []
      bodySizeBytes := 0
      capturedAt := 400000000
      countryObservation := none }
    artifact := none
    detections := []
    observations := [] }
  [.createWithAudit 1 domain DomainCreationDefaults.crawlPolicy "operator".toList 0,
    .reserveDue 0 10 fun _ => ⟨10, 11, 12⟩,
    .claimAttempt first 5,
    .recordFailure first failure 6 .default ⟨20, 21, 22⟩,
    .recordAttemptOutcome 11 (.failed failure) 7 .default ⟨30, 31, 32⟩,
    .claimAttempt second 400000000,
    .recordSuccess second record ⟨40, fun n => 50 + n⟩]

theorem retriedCrawl_resolved_once :
    (reached plainUrlCrate Catalogue.empty retriedCrawl).attempts.map AttemptRow.status =
        [.failed, .succeeded] ∧
      automaticRetries plainUrlCrate 11 (Database.initial Catalogue.empty) retriedCrawl = 1 ∧
      ∀ jobId, automaticRetries plainUrlCrate jobId (Database.initial Catalogue.empty)
        retriedCrawl ≤ 1 :=
  ⟨by decide, by decide,
    (attempts_resolved_once plainUrlCrate Catalogue.empty retriedCrawl (by decide)).2.2.1⟩

end Runs

end TechAtlas.Crawl
