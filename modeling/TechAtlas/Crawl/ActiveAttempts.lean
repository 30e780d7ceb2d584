import TechAtlas.Store.Keys

set_option autoImplicit false

/- A domain has one crawl in flight at most, and none once its policy has given
up. Three transactions insert attempts, each under a guard of its own; the
terminal flag is what makes the manual retry safe. -/
namespace TechAtlas.Crawl

open Library Store

variable {db next : Database}

def activeCount (db : Database) (domainId : Uuid) : Nat :=
  db.attempts.countP (AttemptRow.activeFor domainId)

structure SingleActive (db : Database) : Prop where
  single : ∀ domainId, activeCount db domainId ≤ 1
  flagged : ∀ policy ∈ db.policies, policy.terminalFailureAt.isSome = true →
    activeCount db policy.domainId = 0

section Counts

theorem activeFor_eq_true {domainId : Uuid} {attempt : AttemptRow} :
    attempt.activeFor domainId = true ↔
      attempt.domainId = domainId ∧ attempt.status.isActive = true := by
  simp [AttemptRow.activeFor]

theorem isActive_of_not_isTerminal {status : AttemptStatus} (unresolved : status.isTerminal = false) :
    status.isActive = true := by
  rw [AttemptStatus.isTerminal_eq_not_isActive] at unresolved
  simpa using unresolved

theorem hasActiveAttempt_eq_false {domainId : Uuid} :
    db.hasActiveAttempt domainId = false ↔ activeCount db domainId = 0 := by
  rw [Database.hasActiveAttempt, activeCount, List.any_eq_false, List.countP_eq_zero]

/-- The insertion of a queued attempt counts for its own domain only. -/
theorem countP_append_active (attempts : List AttemptRow) (row : AttemptRow) (domainId : Uuid)
    (queued : row.status = .queued) :
    (attempts ++ [row]).countP (AttemptRow.activeFor domainId) =
      attempts.countP (AttemptRow.activeFor domainId) + if row.domainId = domainId then 1 else 0 := by
  rw [List.countP_append, List.countP_singleton]
  congr 1
  by_cases same : row.domainId = domainId <;>
    simp [AttemptRow.activeFor, same, queued, AttemptStatus.isActive]

variable {attempt : AttemptRow} {change : AttemptRow → AttemptRow}

/-- Resolving attempts never adds an active one. -/
theorem countP_resolve_le (domainId id : Uuid) (attempts : List AttemptRow)
    (terminal : ∀ row, (change row).status.isActive = false) :
    (updateWhere (fun row => row.id == id) change attempts).countP
        (AttemptRow.activeFor domainId) ≤
      attempts.countP (AttemptRow.activeFor domainId) := by
  apply countP_updateWhere_le
  intro row _ active
  rw [activeFor_eq_true, terminal row] at active
  cases active.2

/-- Resolving the attempt in flight empties its domain's slot. -/
theorem countP_resolve_lt (attempts : List AttemptRow) (member : attempt ∈ attempts)
    (active : attempt.status.isActive = true)
    (terminal : ∀ row, (change row).status.isActive = false) :
    (updateWhere (fun row => row.id == attempt.id) change attempts).countP
        (AttemptRow.activeFor attempt.domainId) <
      attempts.countP (AttemptRow.activeFor attempt.domainId) := by
  refine countP_updateWhere_lt _ _ _ attempts ?_ member (beq_self_eq_true _)
    (activeFor_eq_true.mpr ⟨rfl, active⟩) ?_
  · intro row _ active
    rw [activeFor_eq_true, terminal row] at active
    cases active.2
  · rw [Bool.eq_false_iff]
    intro active
    rw [activeFor_eq_true, terminal attempt] at active
    cases active.2

/-- A claim keeps an active attempt active. -/
theorem countP_claim (startedAt : Time) (domainId : Uuid)
    (unresolved : ∀ row ∈ db.attempts, row.id = attempt.id → row.status.isTerminal = false) :
    (updateWhere (fun row => row.id == attempt.id) (AttemptRow.claimedAt startedAt)
        db.attempts).countP (AttemptRow.activeFor domainId) = activeCount db domainId := by
  apply countP_updateWhere_eq
  intro row member selected
  have active := isActive_of_not_isTerminal
    (unresolved row member (by simpa using selected))
  simp only [AttemptRow.activeFor, AttemptRow.claimedAt, active]
  rfl

end Counts

section Policies

variable {domainId : Uuid} {change : PolicyRow → PolicyRow}

/-- After an update of one domain's policy: that domain's flag is the new one,
every other policy is an old one. -/
theorem flagged_updateWhere {attempts : List AttemptRow}
    (keepsDomain : ∀ policy, (change policy).domainId = policy.domainId)
    (here : ∀ policy ∈ db.policies, policy.domainId = domainId →
      (change policy).terminalFailureAt.isSome = true →
      attempts.countP (AttemptRow.activeFor domainId) = 0)
    (elsewhere : ∀ policy ∈ db.policies, policy.domainId ≠ domainId →
      policy.terminalFailureAt.isSome = true →
      attempts.countP (AttemptRow.activeFor policy.domainId) = 0) :
    ∀ policy ∈ updateWhere (fun policy => policy.domainId == domainId) change db.policies,
      policy.terminalFailureAt.isSome = true →
      attempts.countP (AttemptRow.activeFor policy.domainId) = 0 := by
  intro policy member flag
  rcases mem_updateWhere_cases member with ⟨old, other⟩ | ⟨old, inTable, selected, rfl⟩
  · exact elsewhere policy old (by simpa using other) flag
  · have same : old.domainId = domainId := by simpa using selected
    rw [keepsDomain, same]
    exact here old inTable same flag

end Policies

section Moves

/-- A new attempt in an empty slot, for a policy whose flag is cleared. -/
theorem SingleActive.enqueue {row : AttemptRow} {change : PolicyRow → PolicyRow}
    (invariant : SingleActive db) (attempts : next.attempts = db.attempts ++ [row])
    (policies : next.policies =
      updateWhere (fun policy => policy.domainId == row.domainId) change db.policies)
    (queued : row.status = .queued) (idle : activeCount db row.domainId = 0)
    (keepsDomain : ∀ policy, (change policy).domainId = policy.domainId)
    (clears : ∀ policy, (change policy).terminalFailureAt = none) :
    SingleActive next := by
  have counts : ∀ domainId, activeCount next domainId =
      activeCount db domainId + if row.domainId = domainId then 1 else 0 := by
    intro domainId
    rw [activeCount, attempts, countP_append_active db.attempts row domainId queued]
    rfl
  refine ⟨?_, ?_⟩
  · intro domainId
    rw [counts]
    by_cases same : row.domainId = domainId
    · subst same
      rw [idle]
      simp
    · simpa [same] using invariant.single domainId
  · rw [policies]
    refine flagged_updateWhere keepsDomain ?_ ?_
    · intro policy _ _ flag
      rw [clears] at flag
      cases flag
    · intro policy member other flag
      have old := invariant.flagged policy member flag
      change activeCount next policy.domainId = 0
      rw [counts, old, if_neg (Ne.symm other)]

/-- The attempt in flight ends: the slot is empty afterwards, whatever the flag. -/
theorem SingleActive.finish {attempt : AttemptRow} {change : AttemptRow → AttemptRow}
    {policyChange : PolicyRow → PolicyRow} (invariant : SingleActive db)
    (attempts : next.attempts =
      updateWhere (fun row => row.id == attempt.id) change db.attempts)
    (policies : next.policies =
      updateWhere (fun policy => policy.domainId == attempt.domainId) policyChange db.policies)
    (member : attempt ∈ db.attempts)
    (unresolved : ∀ row ∈ db.attempts, row.id = attempt.id → row.status.isTerminal = false)
    (terminal : ∀ row, (change row).status.isActive = false)
    (keepsDomain : ∀ policy, (policyChange policy).domainId = policy.domainId) :
    SingleActive next ∧ activeCount next attempt.domainId = 0 := by
  have active := isActive_of_not_isTerminal (unresolved attempt member rfl)
  have shrinks : ∀ domainId, activeCount next domainId ≤ activeCount db domainId := by
    intro domainId
    rw [activeCount, attempts]
    exact countP_resolve_le domainId attempt.id db.attempts terminal
  have emptied : activeCount next attempt.domainId = 0 := by
    have before := invariant.single attempt.domainId
    have fewer := countP_resolve_lt db.attempts member active terminal
    rw [← attempts] at fewer
    change activeCount next attempt.domainId < activeCount db attempt.domainId at fewer
    omega
  refine ⟨⟨?_, ?_⟩, emptied⟩
  · intro domainId
    exact Nat.le_trans (shrinks domainId) (invariant.single domainId)
  · rw [policies]
    refine flagged_updateWhere keepsDomain (fun _ _ _ _ => emptied) ?_
    intro policy inPolicies _ flag
    have old := invariant.flagged policy inPolicies flag
    exact Nat.le_zero.mp (old ▸ shrinks policy.domainId)

/-- A failed attempt with a retry left: the slot is emptied and filled again,
and its flag was not set, because the attempt was in flight. -/
theorem SingleActive.replace {attempt row : AttemptRow} {change : AttemptRow → AttemptRow}
    {policyChange : PolicyRow → PolicyRow} (invariant : SingleActive db)
    (attempts : next.attempts =
      updateWhere (fun row => row.id == attempt.id) change db.attempts ++ [row])
    (policies : next.policies =
      updateWhere (fun policy => policy.domainId == attempt.domainId) policyChange db.policies)
    (member : attempt ∈ db.attempts)
    (unresolved : ∀ row ∈ db.attempts, row.id = attempt.id → row.status.isTerminal = false)
    (terminal : ∀ row, (change row).status.isActive = false)
    (queued : row.status = .queued) (sameDomain : row.domainId = attempt.domainId)
    (keepsDomain : ∀ policy, (policyChange policy).domainId = policy.domainId)
    (keepsFlag : ∀ policy, (policyChange policy).terminalFailureAt = policy.terminalFailureAt) :
    SingleActive next := by
  have active := isActive_of_not_isTerminal (unresolved attempt member rfl)
  have occupied : 0 < activeCount db attempt.domainId :=
    List.countP_pos_iff.mpr ⟨attempt, member, activeFor_eq_true.mpr ⟨rfl, active⟩⟩
  -- the store between the two statements: the attempt has failed, nothing is queued yet
  let between : Database := { next with
    attempts := updateWhere (fun row => row.id == attempt.id) change db.attempts }
  have sameAttempts : between.attempts =
      updateWhere (fun row => row.id == attempt.id) change db.attempts := rfl
  obtain ⟨finished, emptied⟩ :=
    invariant.finish sameAttempts policies member unresolved terminal keepsDomain
  have counts : ∀ domainId, activeCount next domainId =
      activeCount between domainId + if row.domainId = domainId then 1 else 0 := by
    intro domainId
    rw [activeCount, attempts, countP_append_active _ row domainId queued]
    rfl
  refine ⟨?_, ?_⟩
  · intro domainId
    rw [counts]
    by_cases same : row.domainId = domainId
    · have here : activeCount between domainId = 0 := by
        rw [← same, sameDomain]
        exact emptied
      rw [here]
      simp [same]
    · simpa [same] using finished.single domainId
  · rw [policies]
    refine flagged_updateWhere keepsDomain ?_ ?_
    · intro policy inPolicies same flag
      rw [keepsFlag] at flag
      have none_active := invariant.flagged policy inPolicies flag
      rw [same] at none_active
      omega
    · intro policy inPolicies other flag
      have unflagged := finished.flagged policy (by
        change policy ∈ next.policies
        rw [policies]
        exact mem_updateWhere_of_not inPolicies (by simpa using other)) flag
      change activeCount next policy.domainId = 0
      rw [counts, sameDomain, if_neg (Ne.symm other)]
      exact unflagged

theorem move_singleActive {names : Text → Prop} (move : Move names db next) (invariant : SingleActive db) :
    SingleActive next := by
  cases move with
  | reserve _ idle success =>
      obtain ⟨_, _, rfl⟩ := reserveDomain_eq_ok success
      exact invariant.enqueue rfl rfl rfl (hasActiveAttempt_eq_false.mp idle) (fun _ => rfl)
        (fun _ => rfl)
  | @claim attempt startedAt member success =>
      obtain ⟨checked, rfl⟩ := updateAttempt_eq_some.mp success
      have unresolved : ∀ row ∈ db.attempts, row.id = attempt.id → row.status.isTerminal = false :=
        fun row member same => (checked row member same).1
      have counts := fun domainId => countP_claim startedAt domainId unresolved
      refine ⟨?_, ?_⟩
      · intro domainId
        exact (counts domainId).trans_le (invariant.single domainId)
      · intro policy inPolicies flag
        exact (counts policy.domainId).trans (invariant.flagged policy inPolicies flag)
  | retry success =>
      obtain ⟨attempt, _, policy, inPolicies, events, _, _, sameDomain, flag, _, _, rfl⟩ :=
        retryTerminalAttempt_eq_ok success
      have idle := invariant.flagged policy inPolicies flag
      rw [sameDomain] at idle
      exact invariant.enqueue rfl rfl rfl idle (fun _ => rfl) (fun _ => rfl)
  | reschedule keeps same =>
      have counts : ∀ domainId, activeCount next domainId = activeCount db domainId := by
        intro domainId
        rw [activeCount, same.attempts]
        rfl
      refine ⟨fun domainId => counts domainId ▸ invariant.single domainId, ?_⟩
      · intro policy inPolicies flag
        rw [same.policies] at inPolicies
        rw [counts]
        rcases mem_updateWhere_cases inPolicies with ⟨old, _⟩ | ⟨old, inTable, _, rfl⟩
        · exact invariant.flagged policy old flag
        · rw [keeps.domainId]
          rcases keeps.flag old with cleared | kept
          · rw [cleared] at flag
            cases flag
          · exact invariant.flagged old inTable (kept ▸ flag)
  | @register _ _ fresh unflagged _ _ _ _ same =>
      have counts : ∀ domainId, activeCount next domainId = activeCount db domainId := by
        intro domainId
        rw [activeCount, same.attempts]
        rfl
      refine ⟨fun domainId => counts domainId ▸ invariant.single domainId, ?_⟩
      · intro policy inPolicies flag
        rw [same.policies, List.mem_append, List.mem_singleton] at inPolicies
        rw [counts]
        rcases inPolicies with old | rfl
        · exact invariant.flagged policy old flag
        · rw [unflagged] at flag
          cases flag

theorem resolution_singleActive {records : SuccessfulCrawlRecord → Prop} {bare : Bool}
    (resolution : Resolution records db bare next)
    (invariant : SingleActive db) : SingleActive next := by
  cases resolution with
  | succeed member _ success =>
      obtain ⟨unresolved, _, _, _, _, _, rfl⟩ := persistSuccess_eq_ok success
      exact And.left
        (invariant.finish rfl rfl member unresolved (fun _ => rfl) (fun _ => rfl))
  | bare member success =>
      obtain ⟨unresolved, rfl⟩ := recordSucceeded_eq_ok success
      exact And.left
        (invariant.finish rfl rfl member unresolved (fun _ => rfl) (fun _ => rfl))
  | fail member success =>
      obtain ⟨unresolved, ⟨retryAt, _, _, _, rfl⟩ | ⟨_, rfl⟩⟩ := recordFailed_cases success
      · exact invariant.replace rfl rfl member unresolved (fun _ => rfl) rfl rfl
          (fun _ => rfl) (fun _ => rfl)
      · exact And.left
          (invariant.finish rfl rfl member unresolved (fun _ => rfl) (fun _ => rfl))

end Moves

theorem initial_singleActive (catalogue : Catalogue) :
    SingleActive (Database.initial catalogue) :=
  ⟨fun _ => Nat.zero_le 1, fun _ member => nomatch member⟩

theorem exec_singleActive (crate : UrlCrate) (db : Database) (call : Call)
    (invariant : Keys db ∧ SingleActive db) :
    Keys (exec crate db call) ∧ SingleActive (exec crate db call) :=
  exec_invariant (fun _ _ move _ => move_singleActive move)
    (fun _ _ _ resolution _ => resolution_singleActive resolution)
    (fun _ _ invariant => ⟨invariant.single, invariant.flagged⟩) db call invariant

theorem reached_singleActive (crate : UrlCrate) (catalogue : Catalogue) (calls : List Call) :
    SingleActive (reached crate catalogue calls) := by
  have start := And.intro (initial_keys catalogue) (initial_singleActive catalogue)
  exact (run_invariant (exec_singleActive crate) (Database.initial catalogue) calls start).2

/-- A recovery pass that stops half way leaves the invariant as well. -/
theorem recoverStaleAttempts_singleActive (crate : UrlCrate) {now : Time} {staleAfter : Duration}
    {limit : Nat} {settings : SchedulerSettings} {fresh : Uuid → FreshJob}
    (keys : Keys db) (invariant : SingleActive db) :
    SingleActive (recoverStaleAttempts db now staleAfter limit settings fresh).1 := by
  obtain ⟨calls, _, same⟩ :=
    recoverStaleAttempts_run crate db now staleAfter limit settings fresh
  rw [same]
  exact (run_invariant (exec_singleActive crate) db calls ⟨keys, invariant⟩).2

/-- In every reachable store a domain has at most one attempt queued or
running, and none while its policy is terminally failed. -/
theorem at_most_one_active_attempt (crate : UrlCrate) (catalogue : Catalogue)
    (calls : List Call) :
    (∀ domainId, ((reached crate catalogue calls).attempts.filter fun attempt =>
        attempt.domainId == domainId &&
          (attempt.status == .queued || attempt.status == .running)).length ≤ 1) ∧
      ∀ policy ∈ (reached crate catalogue calls).policies,
        policy.terminalFailureAt.isSome = true →
        ∀ attempt ∈ (reached crate catalogue calls).attempts,
          attempt.domainId = policy.domainId →
          attempt.status ≠ .queued ∧ attempt.status ≠ .running := by
  have invariant := reached_singleActive crate catalogue calls
  constructor
  · intro domainId
    have bound := invariant.single domainId
    rw [activeCount, List.countP_eq_length_filter] at bound
    have sameFilter : (fun attempt : AttemptRow => attempt.domainId == domainId &&
        (attempt.status == .queued || attempt.status == .running)) =
        AttemptRow.activeFor domainId := by
      funext attempt
      cases status : attempt.status <;>
        simp [AttemptRow.activeFor, AttemptStatus.isActive, status]
    rw [sameFilter]
    exact bound
  · intro policy inPolicies flag attempt member same
    have idle := invariant.flagged policy inPolicies flag
    rw [activeCount, List.countP_eq_zero] at idle
    have inactive := idle attempt member
    rw [activeFor_eq_true] at inactive
    constructor
    · intro queued
      exact inactive ⟨same, by rw [queued]; rfl⟩
    · intro running
      exact inactive ⟨same, by rw [running]; rfl⟩

end TechAtlas.Crawl
