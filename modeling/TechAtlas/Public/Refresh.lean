import TechAtlas.Store.Rows

set_option autoImplicit false

/- The cooldown of public refreshes. The latest granted request is the one the
check reads, so requests are spaced whatever the order of their times; the wait
a refusal announces is the time left, rounded down. -/
namespace TechAtlas.Public

open Library Store

variable {crate : UrlCrate} {db next : Database} {domainId : Uuid} {cooldown : Duration}

section Definitions

/-- The time of a refresh of the domain that the call is granted. -/
def grantedRefresh (domainId : Uuid) (db : Database) : Call → Option Time
  | .requestRefresh domain requestedAt cooldown =>
      if (db.activePolicy domain).any (fun policy => policy.domainId == domainId) &&
          (requestRefresh db domain requestedAt cooldown).isOk then some requestedAt
      else none
  | _ => none

/-- The refreshes of the domain granted along a run. -/
def grantedRefreshes (crate : UrlCrate) (domainId : Uuid) : Database → List Call → List Time
  | _, [] => []
  | db, call :: rest =>
      (grantedRefresh domainId db call).toList ++
        grantedRefreshes crate domainId (exec crate db call) rest

def requestedTimes (db : Database) (domainId : Uuid) : List Time :=
  (db.refreshRequests.filter fun row => row.domainId == domainId).map RefreshRequestRow.requestedAt

/-- Each time is the cooldown after all before it. -/
def Spaced (cooldown : Duration) (times : List Time) : Prop :=
  times.Pairwise fun earlier later : Time => earlier + cooldown ≤ later

def isRefresh : Call → Bool
  | .requestRefresh .. => true
  | _ => false

/-- A time that the store can record for the domain and the cooldown be added to. -/
structure Recordable (db : Database) (domainId : Uuid) (cooldown : Duration) (t : Time) :
    Prop where
  present : timestampInRange t = true
  created : ∀ policy ∈ db.policies, policy.domainId = domainId → policy.createdAt ≤ t
  fits : offsetDateTimeInRange (t + cooldown) = true

instance (db : Database) (domainId : Uuid) (cooldown : Duration) (t : Time) :
    Decidable (Recordable db domainId cooldown t) :=
  decidable_of_iff
    (timestampInRange t = true ∧
      (∀ policy ∈ db.policies, policy.domainId = domainId → policy.createdAt ≤ t) ∧
      offsetDateTimeInRange (t + cooldown) = true)
    ⟨fun all => ⟨all.1, all.2.1, all.2.2⟩, fun time => ⟨time.present, time.created, time.fits⟩⟩

end Definitions

section Log

theorem exec_refreshRequests {call : Call} (other : isRefresh call = false) :
    (exec crate db call).refreshRequests = db.refreshRequests := by
  cases exec_work crate db call with
  | adjust adjustments => exact adjustments.refreshes
  | @reserve _ now limit fresh jobs success =>
      have kept : ∀ before after : Database, ∀ domainId job,
          reserveDomain before now (fresh domainId) domainId = .ok (after, job) →
          before.refreshRequests = db.refreshRequests →
          after.refreshRequests = db.refreshRequests := by
        intro before after domainId job reserved same
        obtain ⟨_, _, rfl⟩ := reserveDomain_eq_ok reserved
        exact same
      exact reserveDue_invariant kept success rfl
  | publish _ same _ => rw [same]
  | claim _ updated =>
      obtain ⟨_, same⟩ := updateAttempt_eq_some.mp updated
      rw [same]
  | succeed _ success =>
      obtain ⟨_, _, _, _, _, _, same⟩ := persistSuccess_eq_ok success
      rw [same]
  | bare _ success =>
      obtain ⟨_, same⟩ := recordSucceeded_eq_ok success
      rw [same]
  | fail _ _ _ _ success =>
      obtain ⟨_, ⟨_, _, _, _, same⟩ | ⟨_, same⟩⟩ := recordFailed_cases success <;> rw [same]
  | retry success =>
      obtain ⟨_, _, _, _, _, _, _, _, _, _, _, same⟩ := retryTerminalAttempt_eq_ok success
      rw [same]
  | refresh success => cases other

/-- The table of requests is the log of those granted. -/
theorem exec_requestedTimes (call : Call) :
    requestedTimes (exec crate db call) domainId =
      requestedTimes db domainId ++ (grantedRefresh domainId db call).toList := by
  by_cases other : isRefresh call = false
  · have silent : grantedRefresh domainId db call = none := by
      cases call <;> first | rfl | cases other
    rw [requestedTimes, exec_refreshRequests other, silent]
    exact (List.append_nil _).symm
  · cases call <;> try exact absurd rfl other
    case requestRefresh domain requestedAt cooldown =>
      cases result : requestRefresh db domain requestedAt cooldown with
      | error reason =>
          have refused : grantedRefresh domainId db (.requestRefresh domain requestedAt cooldown) =
              none := by
            simp [grantedRefresh, result, Except.isOk, Except.toBool]
          rw [refused, exec, transact, result]
          exact (List.append_nil _).symm
      | ok outcome =>
          obtain ⟨next, request⟩ := outcome
          obtain ⟨policy, found, _, _, _, stored⟩ := requestRefresh_eq_ok result
          have reached : exec crate db (.requestRefresh domain requestedAt cooldown) = next := by
            rw [exec, transact, result]
            rfl
          rw [reached, stored]
          by_cases same : policy.domainId = domainId
          · simp [requestedTimes, grantedRefresh, found, result, Except.isOk, Except.toBool, same]
          · simp [requestedTimes, grantedRefresh, found, same]

theorem grantedRefresh_eq_some {call : Call} {time : Time}
    (granted : grantedRefresh domainId db call = some time) :
    ∃ domain cooldown policy outcome, call = .requestRefresh domain time cooldown ∧
      db.activePolicy domain = some policy ∧ policy.domainId = domainId ∧
      requestRefresh db domain time cooldown = .ok outcome := by
  cases call <;> simp only [grantedRefresh, Option.ite_none_right_eq_some, reduceCtorEq] at granted
  case requestRefresh domain requestedAt cooldown =>
    obtain ⟨accepted, same⟩ := granted
    cases same
    rw [Bool.and_eq_true, Option.any_eq_true] at accepted
    obtain ⟨⟨policy, found, own⟩, succeeded⟩ := accepted
    cases result : requestRefresh db domain time cooldown with
    | error reason =>
        rw [result] at succeeded
        cases succeeded
    | ok outcome => exact ⟨domain, cooldown, policy, outcome, rfl, found, beq_iff_eq.mp own, result⟩

theorem run_requestedTimes (calls : List Call) :
    requestedTimes (run (exec crate) db calls) domainId =
      requestedTimes db domainId ++ grantedRefreshes crate domainId db calls := by
  induction calls generalizing db with
  | nil => exact (List.append_nil _).symm
  | cons call rest ih =>
      rw [run_cons, ih, exec_requestedTimes, grantedRefreshes, List.append_assoc]

end Log

section Spacing

theorem checkCooldown_eq_ok {last : Option Time} {requestedAt : Time}
    (cooled : checkCooldown last requestedAt cooldown = .ok ()) :
    ∀ time ∈ last, time + cooldown ≤ requestedAt := by
  intro time found
  rw [found] at cooled
  unfold checkCooldown at cooled
  simp only at cooled
  split at cooled
  · cases cooled
  · rename_i next added
    rw [checkedAdd_eq_some added] at cooled
    split at cooled
    · cases cooled
    · rename_i late
      exact not_lt.mp late

/-- A granted request comes the cooldown after all that were granted before. -/
theorem exec_spaced {call : Call}
    (fixed : ∀ domain requestedAt other, call = .requestRefresh domain requestedAt other →
      other = cooldown)
    (spaced : Spaced cooldown (requestedTimes db domainId)) :
    Spaced cooldown (requestedTimes (exec crate db call) domainId) := by
  rw [exec_requestedTimes]
  cases granted : grantedRefresh domainId db call with
  | none =>
      rw [Option.toList_none, List.append_nil]
      exact spaced
  | some time =>
      obtain ⟨domain, other, policy, outcome, rfl, found, rfl, result⟩ :=
        grantedRefresh_eq_some granted
      have same := fixed domain time other rfl
      subst same
      obtain ⟨joined, joinedFound, _, cooled, _⟩ := requestRefresh_eq_ok result
      rw [found] at joinedFound
      cases joinedFound
      rw [Spaced, Option.toList_some, List.pairwise_append]
      refine ⟨spaced, List.pairwise_singleton _ _, ?_⟩
      intro earlier member later single
      rw [List.mem_singleton.mp single]
      obtain ⟨greatest, isMax⟩ : ∃ greatest, lastRequestedAt db policy.domainId = some greatest :=
        Option.isSome_iff_exists.mp (List.isSome_max?_of_mem member)
      have below : earlier ≤ greatest := (List.max?_eq_some_iff.mp isMax).2 earlier member
      have bound := checkCooldown_eq_ok cooled greatest isMax
      exact le_trans (add_le_add_left below _) bound

theorem run_spaced (crate : UrlCrate) (catalogue : Catalogue) (domainId : Uuid) {calls : List Call}
    (fixed : ∀ call ∈ calls, ∀ domain requestedAt other,
      call = .requestRefresh domain requestedAt other → other = cooldown) :
    Spaced cooldown (grantedRefreshes crate domainId (Database.initial catalogue) calls) := by
  have guarded := guarded_of_forall (exec crate) (Database.initial catalogue) calls fixed
  have step : ∀ db call, (∀ domain requestedAt other,
      call = .requestRefresh domain requestedAt other → other = cooldown) →
      Spaced cooldown (requestedTimes db domainId) →
      Spaced cooldown (requestedTimes (exec crate db call) domainId) :=
    fun db call same spaced => exec_spaced same spaced
  have spaced := run_invariant_of_guarded step _ calls guarded List.Pairwise.nil
  rw [run_requestedTimes] at spaced
  exact spaced

end Spacing

section Refusal

variable {domain : CanonicalDomain} {policy : PolicyRow} {t last : Time} {wait : Nat}

/-- A refusal: the latest request is too recent, and the wait is the time left
in whole seconds, at least one. -/
theorem requestRefresh_rateLimited
    (refused : requestRefresh db domain t cooldown = .error (.rateLimited wait)) :
    ∃ policy last, db.activePolicy domain = some policy ∧
      lastRequestedAt db policy.domainId = some last ∧
      checkedAdd last cooldown = some (last + cooldown) ∧ t < last + cooldown ∧
      wait = max ((last + cooldown - t).toNat / 1000000) 1 := by
  rw [requestRefresh] at refused
  rcases bind_eq_error.mp refused with failed | ⟨_, _, refused⟩
  · cases reason_of_orError failed
  rcases bind_eq_error.mp refused with failed | ⟨policy, found, refused⟩
  · cases reason_of_orError failed
  rcases bind_eq_error.mp refused with failed | ⟨_, _, refused⟩
  · unfold require at failed
    split at failed <;> cases failed
  rcases bind_eq_error.mp refused with limited | ⟨_, _, refused⟩
  · refine ⟨policy, ?_⟩
    unfold checkCooldown at limited
    split at limited
    · cases limited
    · rename_i last latest
      split at limited
      · cases limited
      · rename_i next added
        have sum := checkedAdd_eq_some added
        subst sum
        split at limited
        · rename_i early
          cases limited
          exact ⟨last, orError_eq_ok.mp found, latest, added, early, rfl⟩
        · cases limited
  rcases bind_eq_error.mp refused with failed | ⟨_, _, refused⟩
  · cases reason_of_orError failed
  · cases refused

theorem refreshedAt_valid (valid : policy.valid = true) (present : timestampInRange t = true)
    (created : policy.createdAt ≤ t) : (policy.refreshedAt t).valid = true := by
  have latest : max t policy.createdAt = t := max_eq_left created
  have later : notBefore policy.createdAt (some t) = true := decide_eq_true created
  have unflagged : notBefore policy.createdAt none = true := rfl
  simp only [PolicyRow.valid, Bool.and_eq_true, decide_eq_true_eq] at valid
  simp only [PolicyRow.valid, PolicyRow.refreshedAt, latest, Option.all_some, Bool.and_eq_true,
    decide_eq_true_eq, present, later, unflagged, valid, and_true]

/-- A request that only the cooldown can stop. -/
theorem requestRefresh_ok_iff (valid : RowsValid db) (found : db.activePolicy domain = some policy)
    (enabled : policy.isEnabled = true) (latest : lastRequestedAt db policy.domainId = some last)
    (added : checkedAdd last cooldown = some (last + cooldown))
    (time : Recordable db policy.domainId cooldown t) :
    (∃ outcome, requestRefresh db domain t cooldown = .ok outcome) ↔ last + cooldown ≤ t := by
  constructor
  · intro success
    obtain ⟨⟨next, request⟩, success⟩ := success
    obtain ⟨joined, joinedFound, _, cooled, _⟩ := requestRefresh_eq_ok success
    rw [found] at joinedFound
    cases joinedFound
    exact checkCooldown_eq_ok cooled last latest
  · intro late
    have rewritten : ∀ row ∈ db.policies, (row.domainId == policy.domainId) = true →
        (row.refreshedAt t).valid = true := by
      intro row member own
      exact refreshedAt_valid (valid.policies row member) time.present
        (time.created row member (beq_iff_eq.mp own))
    have allowed : checkedAdd t cooldown = some (t + cooldown) := by
      rw [checkedAdd, if_pos time.fits]
    have cooled : checkCooldown (lastRequestedAt db policy.domainId) t cooldown = .ok () := by
      rw [latest, checkCooldown, added]
      exact if_neg (not_lt.mpr late)
    refine exists_bind_ok (orError_eq_ok.mpr allowed) ?_
    refine exists_bind_ok (orError_eq_ok.mpr found) ?_
    refine exists_bind_ok (b := ()) (require_eq_ok.mpr enabled) ?_
    refine exists_bind_ok cooled ?_
    refine exists_bind_ok (orError_eq_ok.mpr (updatePolicies_eq_some.mpr ⟨rewritten, rfl⟩)) ?_
    exact ⟨_, rfl⟩

/-- The announced wait is long enough only if nothing was rounded away. -/
theorem wait_enough_iff {left : Int} (positive : 0 < left) :
    left ≤ (secondsOf (max (left.toNat / 1000000) 1) : Nat) ↔
      left ≤ 1000000 ∨ (1000000 : Int) ∣ left := by
  unfold secondsOf
  omega

end Refusal

/-- Along every run with one cooldown the granted refreshes of a domain are the
cooldown apart. After a refusal, a request at the end of the announced wait, with
no other granted in between, is granted exactly if at most a second was left or
the time left was a whole number of seconds. -/
theorem refresh_cooldown_honored_iff (crate : UrlCrate) (catalogue : Catalogue)
    (cooldown : Duration) (calls : List Call)
    (fixed : ∀ call ∈ calls, ∀ domain requestedAt other,
      call = .requestRefresh domain requestedAt other → other = cooldown) :
    let db := reached crate catalogue calls
    (∀ domainId, (grantedRefreshes crate domainId (Database.initial catalogue) calls).Pairwise
      fun earlier later : Time => earlier + cooldown ≤ later) ∧
    ∀ domain t wait, requestRefresh db domain t cooldown = .error (.rateLimited wait) →
      ∀ policy last, db.activePolicy domain = some policy →
      lastRequestedAt db policy.domainId = some last →
      ∀ after, grantedRefreshes crate policy.domainId db after = [] →
      let later := run (exec crate) db after
      (later.activePolicy domain).any
        (fun row => row.domainId == policy.domainId && row.isEnabled) = true →
      Recordable later policy.domainId cooldown (t + secondsOf wait) →
      ((∃ outcome, requestRefresh later domain (t + secondsOf wait) cooldown = .ok outcome) ↔
        last + cooldown - t ≤ 1000000 ∨ (1000000 : Int) ∣ last + cooldown - t) := by
  intro db
  refine ⟨fun domainId => run_spaced crate catalogue domainId fixed, ?_⟩
  intro domain t wait refused policy last found latest after quiet later stillActive time
  obtain ⟨refusedPolicy, refusedLast, refusedFound, refusedLatest, added, early, rfl⟩ :=
    requestRefresh_rateLimited refused
  rw [found] at refusedFound
  cases refusedFound
  rw [latest] at refusedLatest
  cases refusedLatest
  rw [Option.any_eq_true] at stillActive
  obtain ⟨current, currentFound, kept⟩ := stillActive
  rw [Bool.and_eq_true, beq_iff_eq] at kept
  have unchanged : lastRequestedAt later current.domainId = some last := by
    have times : requestedTimes later policy.domainId = requestedTimes db policy.domainId := by
      rw [run_requestedTimes, quiet, List.append_nil]
    rw [kept.1]
    exact (congrArg List.max? times).trans latest
  have valid : RowsValid later := by
    have whole := reached_rowsValid crate catalogue (calls ++ after)
    rw [reached, run_append] at whole
    exact whole
  rw [← kept.1] at time
  rw [requestRefresh_ok_iff valid currentFound kept.2 unchanged added time, ← sub_le_iff_le_add']
  exact wait_enough_iff (sub_pos.mpr early)

/-- A domain and its first public refresh. -/
def firstRefresh : List Call :=
  [.createWithAudit 1 exampleDomain DomainCreationDefaults.crawlPolicy "operator".toList 0,
    .requestRefresh exampleDomain 10 (secondsOf 86400)]

/-- A refusal whose time left is a whole number of seconds is reliable. -/
theorem firstRefresh_honored :
    ∃ outcome, requestRefresh (reached plainUrlCrate Catalogue.empty firstRefresh) exampleDomain
      (1000010 + secondsOf 86399) (secondsOf 86400) = .ok outcome := by
  have fixed : ∀ call ∈ firstRefresh, ∀ domain requestedAt other,
      call = .requestRefresh domain requestedAt other → other = secondsOf 86400 := by
    refine List.forall_iff_forall_mem.mp ⟨?_, ?_⟩ <;> intro domain requestedAt other same <;>
      cases same
    rfl
  obtain ⟨policy, found, latest⟩ : ∃ policy,
      (reached plainUrlCrate Catalogue.empty firstRefresh).activePolicy exampleDomain =
        some policy ∧
      lastRequestedAt (reached plainUrlCrate Catalogue.empty firstRefresh) policy.domainId =
        some 10 := ⟨_, rfl, by decide +kernel⟩
  refine ((refresh_cooldown_honored_iff plainUrlCrate Catalogue.empty (secondsOf 86400)
    firstRefresh fixed).2 exampleDomain 1000010 86399 ?_ policy 10 found latest [] rfl ?_ ?_).mpr ?_
  · rfl
  · rw [run_nil, found, Option.any_some]
    cases found
    decide +kernel
  · cases found
    decide +kernel
  · decide

/-- Half a second after the first refresh the announced wait is half a second
too short. -/
theorem firstRefresh_wait_short :
    let db := reached plainUrlCrate Catalogue.empty firstRefresh
    requestRefresh db exampleDomain 500010 (secondsOf 86400) = .error (.rateLimited 86399) ∧
      (requestRefresh db exampleDomain (500010 + secondsOf 86399) (secondsOf 86400)).isOk =
        false :=
  ⟨rfl, by decide +kernel⟩

end TechAtlas.Public
