import TechAtlas.Crawl.Chains

set_option autoImplicit false

/- Automatic retries. A failure report queues the next attempt of the chain until
the settings allow no more, and the last failure gives the domain up. -/
namespace TechAtlas.Crawl

open Library Store

variable {crate : UrlCrate} {db next : Database}

section Backoff

variable {settings : SchedulerSettings}

/-- A retry queued the delay after the failure of the attempt before it. -/
def BackedOff (settings : SchedulerSettings) (failed retried : AttemptRow) : Prop :=
  failed.attemptNumber ≤ settings.maxCrawlRetries.toNat ∧ ∃ recorded,
    failed.finishedAt = some recorded ∧
      retried.queuedAt =
        recorded + (settings.crawlRetryBase * 2 ^ (failed.attemptNumber - 1) : Nat)

/-- The calls of a deployment with these settings, manual retries apart. -/
def isAutomatic (settings : SchedulerSettings) (call : Call) : Prop :=
  Call.isManualRetry call = false ∧ ∀ report ∈ call.failureReport, report.settings = settings

theorem backedOff_stable (a b b' : AttemptRow) (same : chainPlace b = chainPlace b')
    (waited : BackedOff settings a b) : BackedOff settings a b' := by
  obtain ⟨few, recorded, finished, queued⟩ := waited
  exact ⟨few, recorded, finished, (congrArg ChainPlace.queuedAt same).symm.trans queued⟩

theorem retriesReport_backedOff {report : FailureReport} (same : report.settings = settings) :
    RetriesReport (BackedOff settings) report := by
  intro attempt row delay positive fits few waits queued
  subst same
  refine ⟨few, report.now, rfl, ?_⟩
  obtain ⟨_, _, value⟩ := (crawlRetryDelay_eq_some positive fits few).mp waits
  rw [queued, value]
  rfl

theorem run_backedOff (catalogue : Catalogue) {calls : List Call}
    (automatic : ∀ call ∈ calls, isAutomatic settings call)
    (ordered : Guarded (exec crate) orderly (Database.initial catalogue) calls) :
    Chains (BackedOff settings) (reached crate catalogue calls) := by
  apply run_chains (isAutomatic settings) backedOff_stable ?_ ?_ catalogue calls automatic ordered
  · intro call permitted report reports
    exact retriesReport_backedOff (permitted.2 report reports)
  · intro call permitted retries
    rw [permitted.1] at retries
    cases retries

theorem Chains.bounded (chains : Chains (BackedOff settings) db) {attempt : AttemptRow}
    (member : attempt ∈ db.attempts) :
    attempt.attemptNumber ≤ settings.maxCrawlRetries.toNat + 1 := by
  by_cases first : attempt.attemptNumber ≤ 1
  · omega
  · obtain ⟨before, inTable, same, number⟩ :=
      chains.closed attempt member (attempt.attemptNumber - 1) (by omega) (by omega)
    have few := (chains.retried before inTable attempt member same (by omega)).1
    omega

/-- The attempts of a correlation id. -/
def chain (db : Database) (correlationId : Uuid) : List AttemptRow :=
  db.attempts.filter fun attempt => attempt.correlationId == correlationId

theorem mem_chain {correlationId : Uuid} {attempt : AttemptRow} :
    attempt ∈ chain db correlationId ↔
      attempt ∈ db.attempts ∧ attempt.correlationId = correlationId := by
  rw [chain, List.mem_filter, beq_iff_eq]

/-- The numbers of a chain are `1..k`. -/
theorem Chains.numbers (chains : Chains (BackedOff settings) db) (valid : RowsValid db)
    (correlationId : Uuid) :
    ∃ k ≤ settings.maxCrawlRetries.toNat + 1,
      ((chain db correlationId).map AttemptRow.attemptNumber).Perm (List.range' 1 k) := by
  have distinct : ((chain db correlationId).map AttemptRow.attemptNumber).Nodup := by
    have keyed : ((chain db correlationId).map chainKey).Nodup :=
      chains.keyed.sublist (List.filter_sublist.map chainKey)
    refine List.Nodup.of_map (fun number => (correlationId, number)) ?_
    rw [List.map_map]
    refine (List.map_congr_left ?_) ▸ keyed
    intro attempt member
    rw [chainKey, (mem_chain.mp member).2]
    rfl
  obtain ⟨k, bound, greatest, reachedBy⟩ : ∃ k ≤ settings.maxCrawlRetries.toNat + 1,
      (∀ attempt ∈ chain db correlationId, attempt.attemptNumber ≤ k) ∧
      (0 < k → ∃ last ∈ chain db correlationId, last.attemptNumber = k) :=
    exists_greatest (chain db correlationId) AttemptRow.attemptNumber fun attempt member =>
      chains.bounded (mem_chain.mp member).1
  refine ⟨k, bound, (List.perm_ext_iff_of_nodup distinct (List.nodup_range' ..)).mpr ?_⟩
  intro number
  rw [List.mem_range'_1, List.mem_map]
  constructor
  · intro found
    obtain ⟨attempt, member, rfl⟩ := found
    have positive := attemptNumber_pos valid (mem_chain.mp member).1
    have small := greatest attempt member
    omega
  · intro between
    obtain ⟨last, inChain, lastNumber⟩ := reachedBy (by omega)
    obtain ⟨inTable, same⟩ := mem_chain.mp inChain
    obtain ⟨attempt, member, sameChain, own⟩ :=
      chains.closed last inTable number (by omega) (by omega)
    exact ⟨attempt, mem_chain.mpr ⟨member, sameChain.trans same⟩, own⟩

end Backoff

section Flags

/-- The step sets the terminal flag of the domain's policy. -/
def givesUpOn (domainId : Uuid) (db next : Database) : Prop :=
  ∃ policy ∈ next.policies, policy.domainId = domainId ∧
    policy.terminalFailureAt.isSome = true ∧
    ∀ old ∈ db.policies, old.domainId = domainId →
      old.terminalFailureAt ≠ policy.terminalFailureAt

/-- The step fails an attempt of the domain with that number. -/
def failsNumber (number : Nat) (domainId : Uuid) (db next : Database) : Prop :=
  ∃ attempt ∈ db.attempts, attempt.domainId = domainId ∧ attempt.attemptNumber = number ∧
    attempt.status.isTerminal = false ∧
    ∃ ended ∈ next.attempts, ended.id = attempt.id ∧ ended.status = .failed

instance (number : Nat) (domainId : Uuid) (db next : Database) :
    Decidable (failsNumber number domainId db next) :=
  inferInstanceAs (Decidable (∃ attempt ∈ db.attempts, attempt.domainId = domainId ∧
    attempt.attemptNumber = number ∧ attempt.status.isTerminal = false ∧
    ∃ ended ∈ next.attempts, ended.id = attempt.id ∧ ended.status = .failed))

/-- No flag is set, some may be cleared. -/
def KeepsFlags (db next : Database) : Prop :=
  ∀ policy ∈ next.policies, policy.terminalFailureAt.isSome = true →
    ∃ old ∈ db.policies, old.domainId = policy.domainId ∧
      old.terminalFailureAt = policy.terminalFailureAt

/-- No attempt is failed. -/
def KeepsFailures (db next : Database) : Prop :=
  ∀ ended ∈ next.attempts, ended.status = .failed → ended ∈ db.attempts

theorem KeepsFlags.update {selected : PolicyRow → Bool} {change : PolicyRow → PolicyRow}
    (policies : next.policies = updateWhere selected change db.policies)
    (keeps : ∀ policy, (change policy).domainId = policy.domainId)
    (flag : ∀ policy, (change policy).terminalFailureAt = none ∨
      (change policy).terminalFailureAt = policy.terminalFailureAt) : KeepsFlags db next := by
  intro policy member flagged
  rw [policies] at member
  rcases mem_updateWhere_cases member with ⟨old, _⟩ | ⟨old, inTable, _, rfl⟩
  · exact ⟨policy, old, rfl, rfl⟩
  · rcases flag old with cleared | kept
    · rw [cleared] at flagged
      cases flagged
    · exact ⟨old, inTable, (keeps old).symm, kept.symm⟩

theorem move_keepsFlags {names : Text → Prop} (move : Move names db next) : KeepsFlags db next := by
  cases move with
  | reserve _ _ success =>
      obtain ⟨_, _, rfl⟩ := reserveDomain_eq_ok success
      exact KeepsFlags.update rfl (fun _ => rfl) fun _ => Or.inl rfl
  | claim _ success =>
      obtain ⟨_, rfl⟩ := updateAttempt_eq_some.mp success
      exact fun policy member _ => ⟨policy, member, rfl, rfl⟩
  | retry success =>
      obtain ⟨_, _, _, _, _, _, _, _, _, _, _, rfl⟩ := retryTerminalAttempt_eq_ok success
      exact KeepsFlags.update rfl (fun _ => rfl) fun _ => Or.inl rfl
  | reschedule keeps same => exact KeepsFlags.update same.policies keeps.domainId keeps.flag
  | register _ unflagged _ _ _ _ same =>
      intro policy member flagged
      rw [same.policies, List.mem_append, List.mem_singleton] at member
      rcases member with old | rfl
      · exact ⟨policy, old, rfl, rfl⟩
      · rw [unflagged] at flagged
        cases flagged

theorem moves_keepsFlags {names : Text → Prop} (moves : Moves names db next) :
    KeepsFlags db next := by
  induction moves with
  | refl => exact fun policy member _ => ⟨policy, member, rfl, rfl⟩
  | tail _ move ih =>
      intro policy member flagged
      obtain ⟨mid, inMid, sameDomain, sameFlag⟩ := move_keepsFlags move policy member flagged
      obtain ⟨old, inTable, domain, flag⟩ := ih mid inMid (by rw [sameFlag]; exact flagged)
      exact ⟨old, inTable, domain.trans sameDomain, flag.trans sameFlag⟩

theorem moves_keepsFailures {names : Text → Prop} (moves : Moves names db next) :
    KeepsFailures db next := by
  intro ended member failed
  apply (moves_sameTerminal moves ended ?_).mp member
  rw [failed]
  rfl

theorem keepsFailures_succeed {id : Uuid} {now : Time}
    (attempts : next.attempts =
      updateWhere (fun row => row.id == id) (AttemptRow.succeededAt now) db.attempts) :
    KeepsFailures db next := by
  intro ended member failed
  rw [attempts] at member
  rcases mem_updateWhere_cases member with ⟨old, _⟩ | ⟨old, _, _, rfl⟩
  · exact old
  · cases failed

/-- Only a report of a failure fails an attempt or sets a flag. -/
theorem exec_failure (crate : UrlCrate) (keys : Keys db) (call : Call) :
    (KeepsFlags db (exec crate db call) ∧ KeepsFailures db (exec crate db call)) ∨
      ∃ report ∈ call.failureReport, ∃ attempt ∈ db.attempts,
        recordFailed db attempt report.failure report.now report.settings report.fresh =
          .ok (exec crate db call) := by
  cases exec_work crate db call with
  | adjust adjustments =>
      exact Or.inl ⟨moves_keepsFlags adjustments.moves, moves_keepsFailures adjustments.moves⟩
  | reserve success =>
      have moves : Moves (fun _ => False) db _ := reserveDue_moves keys.policyKeys success
      exact Or.inl ⟨moves_keepsFlags moves, moves_keepsFailures moves⟩
  | publish _ same _ =>
      rw [same]
      exact Or.inl ⟨fun policy member _ => ⟨policy, member, rfl, rfl⟩, fun _ member _ => member⟩
  | claim member updated =>
      have move : Move (fun _ => False) db _ := Move.claim member updated
      exact Or.inl ⟨move_keepsFlags move, moves_keepsFailures (Moves.single move)⟩
  | succeed _ success =>
      obtain ⟨_, _, _, _, _, _, same⟩ := persistSuccess_eq_ok success
      rw [same]
      exact Or.inl ⟨KeepsFlags.update rfl (fun _ => rfl) fun _ => Or.inl rfl,
        keepsFailures_succeed rfl⟩
  | bare _ success =>
      obtain ⟨_, same⟩ := recordSucceeded_eq_ok success
      rw [same]
      exact Or.inl ⟨KeepsFlags.update rfl (fun _ => rfl) fun _ => Or.inl rfl,
        keepsFailures_succeed rfl⟩
  | fail report reports member _ success => exact Or.inr ⟨report, reports, _, member, success⟩
  | retry success =>
      have move : Move (fun _ => False) db _ := Move.retry success
      exact Or.inl ⟨move_keepsFlags move, moves_keepsFailures (Moves.single move)⟩
  | refresh success =>
      have move : Move (fun _ => False) db _ := (requestRefresh_move success).1
      exact Or.inl ⟨move_keepsFlags move, moves_keepsFailures (Moves.single move)⟩

/-- A failure with retries left queues the next one and sets no flag. -/
theorem not_givesUpOn_of_keepsFlags {domainId : Uuid} (keeps : KeepsFlags db next) :
    ¬ givesUpOn domainId db next := by
  intro gaveUp
  obtain ⟨policy, member, same, flagged, new⟩ := gaveUp
  obtain ⟨old, inTable, sameDomain, sameFlag⟩ := keeps policy member flagged
  exact new old inTable (sameDomain.trans same) sameFlag

/-- The failed attempt and, behind it, the retry. -/
theorem recordFailed_attempts {attempt : AttemptRow} {failure : CrawlFailure} {now : Time}
    {settings : SchedulerSettings} {fresh : FreshJob}
    (success : recordFailed db attempt failure now settings fresh = .ok next) :
    ∃ added : List AttemptRow, (∀ row ∈ added, row.status = .queued) ∧
      next.attempts = updateWhere (fun row => row.id == attempt.id)
        (AttemptRow.failedAt now failure) db.attempts ++ added := by
  obtain ⟨_, ⟨retryAt, _, _, _, rfl⟩ | ⟨_, rfl⟩⟩ := recordFailed_cases success
  · exact ⟨[_], by simp [queuedAttempt], rfl⟩
  · exact ⟨[], by simp, (List.append_nil _).symm⟩

/-- The attempt that a step fails is the one its report is about. -/
theorem failsNumber_recordFailed {attempt : AttemptRow} {failure : CrawlFailure} {now : Time}
    {settings : SchedulerSettings} {fresh : FreshJob} {number : Nat} {domainId : Uuid}
    (keys : Keys db) (member : attempt ∈ db.attempts)
    (success : recordFailed db attempt failure now settings fresh = .ok next) :
    failsNumber number domainId db next ↔
      attempt.domainId = domainId ∧ attempt.attemptNumber = number := by
  have unresolved := (recordFailed_cases success).1
  obtain ⟨rows, queued, attempts⟩ := recordFailed_attempts success
  constructor
  · intro fails
    obtain ⟨own, inTable, domain, numbered, stillOpen, ended, inNext, sameId, failed⟩ := fails
    have same : own = attempt := by
      rw [attempts] at inNext
      rcases List.mem_append.mp inNext with amended | added
      · rcases mem_updateWhere_cases amended with ⟨old, _⟩ | ⟨old, inOld, selected, rfl⟩
        · rw [← keys.attempt_eq old inTable sameId, failed] at stillOpen
          cases stillOpen
        · have oldSame := keys.attempt_eq inOld member (by simpa using selected)
          rw [oldSame] at sameId
          exact keys.attempt_eq inTable member sameId.symm
      · rw [queued ended added] at failed
        cases failed
    rw [← same]
    exact ⟨domain, numbered⟩
  · intro own
    refine ⟨attempt, member, own.1, own.2, unresolved attempt member rfl,
      attempt.failedAt now failure, ?_, rfl, rfl⟩
    rw [attempts]
    exact List.mem_append_left _ (mem_updateWhere_of_selected member (beq_self_eq_true _))

/-- The flag of a domain is set by the failure of its last attempt, and by
nothing else. -/
theorem givesUpOn_iff {settings : SchedulerSettings} (crate : UrlCrate) (keys : Keys db)
    (single : SingleActive db) (chains : Chains (BackedOff settings) db) {call : Call}
    (automatic : isAutomatic settings call) (domainId : Uuid) :
    givesUpOn domainId db (exec crate db call) ↔
      failsNumber (settings.maxCrawlRetries.toNat + 1) domainId db (exec crate db call) := by
  rcases exec_failure crate keys call with ⟨flags, failures⟩ | ⟨report, reports, attempt, member,
    success⟩
  · constructor
    · intro gaveUp
      exact absurd gaveUp (not_givesUpOn_of_keepsFlags flags)
    · intro fails
      obtain ⟨own, inTable, _, _, stillOpen, ended, inNext, sameId, failed⟩ := fails
      have old := failures ended inNext failed
      rw [← keys.attempt_eq old inTable sameId, failed] at stillOpen
      cases stillOpen
  · rw [failsNumber_recordFailed keys member success]
    have bounded := chains.bounded member
    have same := automatic.2 report reports
    obtain ⟨unresolved, ⟨retryAt, few, _, _, stored⟩ | ⟨many, stored⟩⟩ := recordFailed_cases success
    · rw [same] at few
      constructor
      · intro gaveUp
        refine absurd gaveUp (not_givesUpOn_of_keepsFlags ?_)
        rw [stored]
        exact KeepsFlags.update rfl (fun _ => rfl) fun _ => Or.inr rfl
      · intro own
        omega
    · rw [same] at many
      rw [stored]
      constructor
      · intro gaveUp
        obtain ⟨policy, inNext, sameDomain, _, new⟩ := gaveUp
        rcases mem_updateWhere_cases inNext with ⟨old, _⟩ | ⟨old, _, selected, rfl⟩
        · exact absurd rfl (new policy old sameDomain)
        · have own : old.domainId = attempt.domainId := by simpa using selected
          exact ⟨own.symm.trans sameDomain, by omega⟩
      · intro own
        obtain ⟨policy, inPolicies, sameDomain⟩ := exists_policy keys member
        refine ⟨policy.gaveUpAt report.now, ?_, sameDomain.trans own.1, rfl, ?_⟩
        · exact mem_updateWhere_of_selected inPolicies (by simpa using sameDomain)
        · -- the attempt was in flight, so the flag was not set
          intro old inTable domain flagged
          have idle := single.flagged old inTable (by rw [flagged]; rfl)
          rw [domain, ← own.1, activeCount, List.countP_eq_zero] at idle
          apply idle attempt member
          rw [activeFor_eq_true]
          exact ⟨rfl, isActive_of_not_isTerminal (unresolved attempt member rfl)⟩

end Flags

/-- In every run under constant settings and without manual retries, the
attempts of a correlation id are numbered `1..k`, all but the last have failed,
and each is available the delay after the failure before it; the terminal flag
of a domain is set exactly by the failure of the last attempt the settings
allow. -/
theorem automatic_retries_bounded (crate : UrlCrate) (catalogue : Catalogue)
    (settings : SchedulerSettings) (calls : List Call)
    (automatic : ∀ call ∈ calls, isAutomatic settings call)
    (ordered : Guarded (exec crate) orderly (Database.initial catalogue) calls) :
    let db := reached crate catalogue calls
    (∀ correlationId, ∃ k ≤ settings.maxCrawlRetries.toNat + 1,
      ((chain db correlationId).map AttemptRow.attemptNumber).Perm (List.range' 1 k) ∧
      (∀ attempt ∈ chain db correlationId, attempt.attemptNumber < k →
        attempt.status = .failed)) ∧
    (∀ attempt ∈ db.attempts, ∀ later ∈ db.attempts,
      attempt.correlationId = later.correlationId →
      later.attemptNumber = attempt.attemptNumber + 1 →
      ∃ recorded, attempt.finishedAt = some recorded ∧ ∃ message ∈ db.outbox,
        message.crawlAttemptId = later.id ∧
        message.availableAt =
          recorded + (settings.crawlRetryBase * 2 ^ (attempt.attemptNumber - 1) : Nat)) ∧
    ∀ call, isAutomatic settings call → ∀ domainId,
      (givesUpOn domainId db (exec crate db call) ↔
        failsNumber (settings.maxCrawlRetries.toNat + 1) domainId db (exec crate db call)) := by
  intro db
  have keys := reached_keys crate catalogue calls
  have valid := reached_rowsValid crate catalogue calls
  have chains : Chains (BackedOff settings) db := run_backedOff catalogue automatic ordered
  refine ⟨?_, ?_, ?_⟩
  · intro correlationId
    obtain ⟨k, bound, numbers⟩ := chains.numbers valid correlationId
    refine ⟨k, bound, numbers, ?_⟩
    intro attempt member less
    obtain ⟨inTable, same⟩ := mem_chain.mp member
    have positive := attemptNumber_pos valid inTable
    have present : k ∈ (chain db correlationId).map AttemptRow.attemptNumber := by
      rw [numbers.mem_iff, List.mem_range'_1]
      omega
    obtain ⟨last, inChain, lastNumber⟩ := List.mem_map.mp present
    obtain ⟨lastIn, lastSame⟩ := mem_chain.mp inChain
    exact (chains.superseded attempt inTable last lastIn (same.trans lastSame.symm)
      (by omega)).1
  · intro attempt member later inTable same number
    obtain ⟨_, recorded, finished, queued⟩ := chains.retried attempt member later inTable same number
    obtain ⟨message, posted, sameId, available⟩ := chains.posted later inTable
    exact ⟨recorded, finished, message, posted, sameId, available.trans queued⟩
  · intro call permitted domainId
    exact givesUpOn_iff crate keys (reached_singleActive crate catalogue calls) chains permitted
      domainId

/-- The `number`th attempt of the example starts and fails. -/
def defaultRound (number : Nat) : List Call :=
  let job := newJobWithCorrelation 1 12 (100 + number)
  [.claimAttempt job (number * 10000000000),
    .recordFailure job leaseExpired (number * 10000000000 + 1) .default
      ⟨1001 + number, 101 + number, 0⟩]

/-- The first three failures of a crawl under the default settings. -/
def threeFailures : List Call :=
  [.createWithAudit 1 exampleDomain DomainCreationDefaults.crawlPolicy "operator".toList 0,
    .reserveDue 0 10 fun _ => ⟨1001, 101, 12⟩] ++
    defaultRound 1 ++ defaultRound 2 ++ defaultRound 3

/-- The fourth attempt is the last one, and its failure gives the domain up. -/
theorem threeFailures_retried :
    let db := reached plainUrlCrate Catalogue.empty threeFailures
    let last := Call.recordFailure (newJobWithCorrelation 1 12 104) leaseExpired 40000000001
      .default ⟨1005, 105, 0⟩
    (chain db 12).map AttemptRow.attemptNumber = [1, 2, 3, 4] ∧
      (∀ attempt ∈ chain db 12, attempt.attemptNumber = 3 →
        attempt.finishedAt = some 30000000001) ∧
      givesUpOn 1 db (exec plainUrlCrate db last) := by
  have automatic : ∀ call ∈ threeFailures, isAutomatic .default call := by
    refine List.forall_iff_forall_mem.mp ?_
    refine ⟨?_, ?_, ?_, ?_, ?_, ?_, ?_, ?_⟩ <;> refine ⟨rfl, ?_⟩ <;> intro report reports <;>
      cases reports <;> rfl
  have bounded := automatic_retries_bounded plainUrlCrate Catalogue.empty .default threeFailures
    automatic (by decide +kernel)
  refine ⟨by decide +kernel, by decide +kernel, ?_⟩
  refine (bounded.2.2 _ ⟨rfl, ?_⟩ 1).mpr (by decide +kernel)
  intro report reports
  cases reports
  rfl

end TechAtlas.Crawl
