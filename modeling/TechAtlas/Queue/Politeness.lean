import TechAtlas.Library.Transition
import TechAtlas.Library.Text

set_option autoImplicit false

/- `RedisPolitenessGate`: the lease that spaces the crawls of a domain across
worker replicas. A lease is stored twice, as the next allowed time and as the
expiry of its key, and the script computes with Lua's numbers. -/
namespace TechAtlas.Queue

open Library

section Script

/-- The nearest number a Lua script can hold: 53 significant bits, ties to even. -/
def luaNumber (n : Nat) : Nat :=
  let unit := 2 ^ (n.log2 + 1 - 53)
  let below := n / unit
  let rest := n % unit
  if 2 * rest < unit ∨ (2 * rest = unit ∧ below % 2 = 0) then below * unit else (below + 1) * unit

/-- The value of a lease key and the server time at which the key expires, both
in milliseconds. -/
structure Lease where
  nextAllowed : Nat
  expiresAt : Nat
  deriving DecidableEq, Repr

/-- Redis drops a key once its expiry has passed; `gone` says whether it does so
already in the millisecond of the expiry itself. -/
def Lease.isLive (clock : Nat) (gone : Bool) (lease : Lease) : Bool :=
  decide (clock / 1000 < lease.expiresAt) ||
    (decide (clock / 1000 = lease.expiresAt) && !gone)

/-- `now_millis`: the script's reading of `TIME`, seconds and microseconds. -/
def nowMillis (clock : Nat) : Nat :=
  luaNumber (luaNumber (luaNumber (clock / 1000000) * 1000) + clock % 1000000 / 1000)

def nextAllowed (stored : Option Lease) (clock : Nat) (gone : Bool) : Nat :=
  ((stored.filter (Lease.isLive clock gone)).map Lease.nextAllowed).getD 0

/-- `POLITENESS_LEASE_SCRIPT`: the lease it sets, if it sets one, and its reply. -/
def politenessLease (stored : Option Lease) (clock delayMillis : Nat) (gone : Bool) :
    Option Lease × Nat :=
  let now := nowMillis clock
  let delay := luaNumber delayMillis
  let next := nextAllowed stored clock gone
  if now < next then (none, luaNumber (next - now))
  else (some ⟨luaNumber (now + delay), clock / 1000 + delay⟩, 0)

end Script

section Gate

structure RedisPolitenessConfig where
  keyPrefix : Text
  keyPrefix_ne_nil : trim keyPrefix ≠ []

def RedisPolitenessConfig.default : RedisPolitenessConfig where
  keyPrefix := "techatlas:crawl-politeness:v1".toList
  keyPrefix_ne_nil := by decide

def RedisPolitenessConfig.leaseKey (config : RedisPolitenessConfig) (domain : Text) : Text :=
  config.keyPrefix ++ ':' :: domain

/-- The delay is a `Duration`, in nanoseconds. -/
structure PolitenessRequest where
  domain : Text
  minimumDelay : Nat
  deriving DecidableEq, Repr

inductive RedisPolitenessGateError
  | timedOut
  | unavailable
  deriving DecidableEq, Repr

def RedisPolitenessGateError.message : RedisPolitenessGateError → Text
  | .timedOut => "Redis politeness operation timed out".toList
  | .unavailable => "Redis politeness gate is unavailable".toList

inductive PolitenessGateError
  | cancelled
  | unavailable (reason : Text)
  deriving DecidableEq, Repr

/-- `delay.as_millis()`, which must be a positive `u64`. -/
def delayMillis (minimumDelay : Nat) : Except RedisPolitenessGateError Nat :=
  let millis := minimumDelay / 1000000
  if 2 ^ 64 ≤ millis then .error .unavailable
  else if millis = 0 then .error .unavailable
  else .ok millis

/-- One call of `acquire`: about to ask for the lease, asleep, or back. -/
inductive Acquisition
  | asking (request : PolitenessRequest)
  | sleeping (request : PolitenessRequest) (wait : Nat)
  | returned (request : PolitenessRequest) (result : Except PolitenessGateError Unit)
  deriving DecidableEq

/-- What becomes of an `EVAL`: its reply arrives, or the script runs and its reply
is lost, or the script does not run to its end and changes nothing. -/
inductive Evaluation
  | answered
  | lost (error : RedisPolitenessGateError)
  | failed (error : RedisPolitenessGateError)
  deriving DecidableEq, Repr

/-- A lease that the script set, at a server time in milliseconds. -/
structure Grant where
  worker : Nat
  time : Nat
  delayMillis : Nat
  deriving DecidableEq, Repr

/-- The server's clock counts microseconds. `grants` remembers, for each domain,
every lease in the order in which they were set. -/
structure Politeness where
  clock : Nat
  keys : Text → Option Lease
  acquisitions : Nat → Option Acquisition
  grants : Text → List Grant

def Politeness.initial (clock : Nat) : Politeness where
  clock := clock
  keys := fun _ => none
  acquisitions := fun _ => none
  grants := fun _ => []

/-- Workers call `acquire`, ask for the lease after some time has passed on the
server, wake up from their sleep or see that they are cancelled. -/
inductive PolitenessAction
  | acquire (worker : Nat) (request : PolitenessRequest)
  | evaluate (worker elapsed : Nat) (gone : Bool) (evaluation : Evaluation)
  | wake (worker : Nat)
  | cancel (worker : Nat)
  deriving DecidableEq, Repr

namespace Politeness

variable (config : RedisPolitenessConfig) (s : Politeness)

def setAcquisition (worker : Nat) (acquisition : Acquisition) : Politeness :=
  { s with acquisitions := fun other =>
      if other = worker then some acquisition else s.acquisitions other }

/-- What a script that set the lease leaves behind. -/
def grant (domain : Text) (lease : Lease) (granted : Grant) : Politeness :=
  { s with
    keys := fun key => if key = config.leaseKey domain then some lease else s.keys key
    grants := fun other =>
      if other = domain then s.grants other ++ [granted] else s.grants other }

def acquire (worker : Nat) (request : PolitenessRequest) : Politeness :=
  if trim request.domain = [] then
    s.setAcquisition worker
      (.returned request (.error (.unavailable "empty crawl domain".toList)))
  else s.setAcquisition worker (.asking request)

/-- The server's part of `lease_wait`: the script's reply, in milliseconds. -/
def evaluate (worker : Nat) (request : PolitenessRequest) (delayMillis : Nat) (gone : Bool) :
    Politeness × Nat :=
  let (lease, wait) := politenessLease (s.keys (config.leaseKey request.domain)) s.clock
    delayMillis gone
  match lease with
  | some lease =>
      (s.grant config request.domain lease ⟨worker, s.clock / 1000, delayMillis⟩, wait)
  | none => (s, wait)

def fail (worker : Nat) (request : PolitenessRequest) (error : RedisPolitenessGateError) :
    Politeness :=
  s.setAcquisition worker (.returned request (.error (.unavailable error.message)))

/-- One turn of the loop of `acquire`. -/
def ask (worker : Nat) (request : PolitenessRequest) (gone : Bool) (evaluation : Evaluation) :
    Politeness :=
  match delayMillis request.minimumDelay with
  | .error error => s.fail worker request error
  | .ok delayMillis =>
      let (evaluated, wait) := s.evaluate config worker request delayMillis gone
      match evaluation with
      | .failed error => s.fail worker request error
      | .lost error => evaluated.fail worker request error
      | .answered =>
          if wait = 0 then evaluated.setAcquisition worker (.returned request (.ok ()))
          else evaluated.setAcquisition worker (.sleeping request wait)

def step : PolitenessAction → Politeness
  | .acquire worker request => s.acquire worker request
  | .evaluate worker elapsed gone evaluation =>
      let later := { s with clock := s.clock + elapsed }
      match s.acquisitions worker with
      | some (.asking request) => later.ask config worker request gone evaluation
      | _ => later
  | .wake worker =>
      match s.acquisitions worker with
      | some (.sleeping request _) => s.setAcquisition worker (.asking request)
      | _ => s
  | .cancel worker =>
      match s.acquisitions worker with
      | some (.asking request) => s.setAcquisition worker (.returned request (.error .cancelled))
      | some (.sleeping request _) =>
          s.setAcquisition worker (.returned request (.error .cancelled))
      | _ => s

end Politeness

end Gate

section Statements

/-- Each lease has run out before the next one is set. -/
def Spaced (grants : List Grant) : Prop :=
  grants.Pairwise fun earlier later => earlier.time + earlier.delayMillis ≤ later.time

/-- An evaluation that sets no lease replies with the positive number of
milliseconds after which, and not before, an evaluation sets one. -/
def Announced (config : RedisPolitenessConfig) (s : Politeness) : PolitenessAction → Prop
  | .evaluate worker elapsed gone _ =>
      match s.acquisitions worker with
      | some (.asking request) =>
          let stored := s.keys (config.leaseKey request.domain)
          let clock := s.clock + elapsed
          ∀ millis, delayMillis request.minimumDelay = .ok millis →
            let (lease, wait) := politenessLease stored clock millis gone
            lease = none → 0 < wait ∧ ∀ later, clock ≤ later → ∀ delay gone,
              ((politenessLease stored later delay gone).1.isSome = true ↔
                clock / 1000 + wait ≤ later / 1000)
      | _ => True
  | _ => True

/-- The end of a lease asked for now is an integer that Lua's numbers hold. -/
def InLuaRange (s : Politeness) : PolitenessAction → Prop
  | .evaluate worker elapsed _ _ =>
      match s.acquisitions worker with
      | some (.asking request) =>
          (s.clock + elapsed) / 1000 + request.minimumDelay / 1000000 ≤ 2 ^ 53
      | _ => True
  | _ => True

instance (s : Politeness) (action : PolitenessAction) : Decidable (InLuaRange s action) :=
  match action with
  | .evaluate worker elapsed _ _ =>
      match asking : s.acquisitions worker with
      | some (.asking request) =>
          decidable_of_iff ((s.clock + elapsed) / 1000 + request.minimumDelay / 1000000 ≤ 2 ^ 53)
            (by simp [InLuaRange, asking])
      | some (.sleeping _ _) | some (.returned _ _) | none => isTrue (by simp [InLuaRange, asking])
  | .acquire _ _ | .wake _ | .cancel _ => isTrue trivial

end Statements

section Arithmetic

theorem luaNumber_of_le {n : Nat} (fits : n ≤ 2 ^ 53) : luaNumber n = n := by
  by_cases edge : n = 2 ^ 53
  · rw [edge]
    decide
  · have small : n < 2 ^ 53 := lt_of_le_of_ne fits edge
    have bits : n.log2 + 1 - 53 = 0 := by
      by_cases zero : n = 0
      · rw [zero]
        rfl
      · have bound := (Nat.log2_lt zero).mpr small
        omega
    simp [luaNumber, bits, Nat.mod_one]

theorem nowMillis_of_le {clock : Nat} (fits : clock / 1000 ≤ 2 ^ 53) :
    nowMillis clock = clock / 1000 := by
  have whole : clock / 1000000 * 1000 + clock % 1000000 / 1000 = clock / 1000 := by omega
  have seconds : clock / 1000000 ≤ 2 ^ 53 := by omega
  have thousands : clock / 1000000 * 1000 ≤ 2 ^ 53 := by omega
  rw [nowMillis, luaNumber_of_le seconds, luaNumber_of_le thousands, whole, luaNumber_of_le fits]

theorem delayMillis_eq_ok {minimumDelay millis : Nat}
    (success : delayMillis minimumDelay = .ok millis) : millis = minimumDelay / 1000000 := by
  unfold delayMillis at success
  dsimp only at success
  split at success
  · cases success
  · split at success
    · cases success
    · exact (Except.ok.inj success).symm

end Arithmetic

section Lease

variable {stored : Option Lease} {clock delay leaseEnd wait : Nat} {gone : Bool}

theorem politenessLease_isSome_iff :
    (politenessLease stored clock delay gone).1.isSome = true ↔
      nextAllowed stored clock gone ≤ nowMillis clock := by
  unfold politenessLease
  dsimp only
  split
  · rename_i early
    simp [early]
  · rename_i due
    simpa using due

/-- A lease is refused until its end and given from then on, whether or not its
key is still there in that millisecond. -/
theorem politenessLease_isSome_iff_end (bounded : leaseEnd ≤ 2 ^ 53) :
    (politenessLease (some ⟨leaseEnd, leaseEnd⟩) clock delay gone).1.isSome = true ↔
      leaseEnd ≤ clock / 1000 := by
  rw [politenessLease_isSome_iff]
  rcases Nat.lt_trichotomy (clock / 1000) leaseEnd with before | at_end | after
  · have exact_now := nowMillis_of_le (le_trans before.le bounded)
    have live : Lease.isLive clock gone ⟨leaseEnd, leaseEnd⟩ = true := by
      simp [Lease.isLive, before]
    simp [nextAllowed, Option.filter, live, exact_now]
  · have exact_now := nowMillis_of_le (at_end ▸ bounded)
    cases gone <;> simp [nextAllowed, Option.filter, Lease.isLive, exact_now, at_end]
  · have dead : Lease.isLive clock gone ⟨leaseEnd, leaseEnd⟩ = false := by
      simp [Lease.isLive]
      omega
    simp [nextAllowed, Option.filter, dead]
    exact after.le

theorem politenessLease_set {lease : Lease} (inRange : clock / 1000 + delay ≤ 2 ^ 53)
    (result : politenessLease stored clock delay gone = (some lease, wait)) :
    lease = ⟨clock / 1000 + delay, clock / 1000 + delay⟩ ∧ wait = 0 := by
  have now := nowMillis_of_le (le_trans (Nat.le_add_right _ delay) inRange)
  have exact_delay := luaNumber_of_le (le_trans (Nat.le_add_left delay _) inRange)
  have exact_end := luaNumber_of_le inRange
  unfold politenessLease at result
  dsimp only at result
  split at result
  · cases result
  · rw [now, exact_delay, exact_end] at result
    cases result
    exact ⟨rfl, rfl⟩

/-- The reply of an evaluation that sets no lease. -/
theorem politenessLease_wait (bounded : leaseEnd ≤ 2 ^ 53)
    (result : politenessLease (some ⟨leaseEnd, leaseEnd⟩) clock delay gone = (none, wait)) :
    clock / 1000 < leaseEnd ∧ wait = leaseEnd - clock / 1000 := by
  have refused : ¬ leaseEnd ≤ clock / 1000 := by
    rw [← politenessLease_isSome_iff_end bounded, result]
    simp
  have before := Nat.lt_of_not_le refused
  have now := nowMillis_of_le (le_trans before.le bounded)
  have live : Lease.isLive clock gone ⟨leaseEnd, leaseEnd⟩ = true := by
    simp [Lease.isLive, before]
  have next : nextAllowed (some ⟨leaseEnd, leaseEnd⟩) clock gone = leaseEnd := by
    simp [nextAllowed, Option.filter, live]
  unfold politenessLease at result
  dsimp only at result
  rw [next, now, if_pos before, luaNumber_of_le (by omega)] at result
  exact ⟨before, (Prod.mk.inj result).2.symm⟩

end Lease

section Runs

variable {config : RedisPolitenessConfig} {s : Politeness}

def Grant.leaseEnd (grant : Grant) : Nat := grant.time + grant.delayMillis

def Grant.lease (grant : Grant) : Lease := ⟨grant.leaseEnd, grant.leaseEnd⟩

/-- Every key holds the last lease of its domain, the leases of a domain are
spaced, and whoever is back from `acquire` was given one. -/
structure Orderly (config : RedisPolitenessConfig) (s : Politeness) : Prop where
  keys : ∀ domain, s.keys (config.leaseKey domain) = (s.grants domain).getLast?.map Grant.lease
  bounded : ∀ domain, ∀ grant ∈ s.grants domain, grant.leaseEnd ≤ 2 ^ 53
  spaced : ∀ domain, Spaced (s.grants domain)
  acquired : ∀ worker request, s.acquisitions worker = some (.returned request (.ok ())) →
    ∃ grant ∈ s.grants request.domain, grant.worker = worker ∧
      grant.delayMillis = request.minimumDelay / 1000000

theorem leaseKey_injective {left right : Text}
    (same : config.leaseKey left = config.leaseKey right) : left = right :=
  (List.cons.inj (List.append_cancel_left same)).2

theorem Spaced.concat {grants : List Grant} {next : Grant} (spaced : Spaced grants)
    (after : ∀ last ∈ grants.getLast?, last.leaseEnd ≤ next.time) :
    Spaced (grants ++ [next]) := by
  rw [Spaced, List.pairwise_append]
  refine ⟨spaced, List.pairwise_singleton _ _, ?_⟩
  intro earlier member later own
  rw [List.mem_singleton.mp own]
  rcases List.eq_nil_or_concat grants with none | ⟨before, last, rfl⟩
  · rw [none] at member
    cases member
  · rw [List.concat_eq_append] at member spaced after
    rw [Spaced, List.pairwise_append] at spaced
    have ended : last.leaseEnd ≤ next.time := after last List.getLast?_concat
    rcases List.mem_append.mp member with inBefore | isLast
    · -- an earlier lease ended before the last one was set
      have set := spaced.2.2 earlier inBefore last List.mem_cons_self
      have set_end : last.time ≤ last.leaseEnd := Nat.le_add_right _ _
      exact le_trans set (le_trans set_end ended)
    · rw [List.mem_singleton.mp isLast]
      exact ended

theorem initial_orderly (config : RedisPolitenessConfig) (clock : Nat) :
    Orderly config (Politeness.initial clock) where
  keys := fun _ => rfl
  bounded := by
    intro domain grant member
    cases member
  spaced := fun _ => List.Pairwise.nil
  acquired := by
    intro worker request returned
    cases returned

theorem Orderly.later (orderly : Orderly config s) (clock : Nat) :
    Orderly config { s with clock := clock } :=
  ⟨orderly.keys, orderly.bounded, orderly.spaced, orderly.acquired⟩

/-- A caller's progress leaves the leases alone. -/
theorem Orderly.setAcquisition (orderly : Orderly config s) {worker : Nat}
    {acquisition : Acquisition}
    (granted : ∀ request, acquisition = .returned request (.ok ()) →
      ∃ grant ∈ s.grants request.domain, grant.worker = worker ∧
        grant.delayMillis = request.minimumDelay / 1000000) :
    Orderly config (s.setAcquisition worker acquisition) where
  keys := orderly.keys
  bounded := orderly.bounded
  spaced := orderly.spaced
  acquired := by
    intro other request returned
    by_cases own : other = worker
    · subst own
      simp only [Politeness.setAcquisition, if_true, Option.some.injEq] at returned
      exact granted request returned
    · simp only [Politeness.setAcquisition, if_neg own] at returned
      exact orderly.acquired other request returned

/-- A lease is set only after the end of the last one of its domain. -/
theorem Orderly.ended (orderly : Orderly config s) {domain : Text} {delay : Nat} {gone : Bool}
    (set : (politenessLease (s.keys (config.leaseKey domain)) s.clock delay gone).1.isSome = true) :
    ∀ last ∈ (s.grants domain).getLast?, last.leaseEnd ≤ s.clock / 1000 := by
  intro last isLast
  have stored : s.keys (config.leaseKey domain) = some last.lease := by
    rw [orderly.keys, Option.mem_def.mp isLast]
    rfl
  rw [stored] at set
  have bounded := orderly.bounded domain last (List.mem_of_getLast? isLast)
  exact (politenessLease_isSome_iff_end bounded).mp set

theorem Orderly.grant (orderly : Orderly config s) {domain : Text} {granted : Grant}
    (bounded : granted.leaseEnd ≤ 2 ^ 53)
    (ended : ∀ last ∈ (s.grants domain).getLast?, last.leaseEnd ≤ granted.time) :
    Orderly config (s.grant config domain granted.lease granted) where
  keys := by
    intro other
    by_cases own : other = domain
    · simp [Politeness.grant, own]
    · have otherKey : config.leaseKey other ≠ config.leaseKey domain :=
        fun same => own (leaseKey_injective same)
      simp [Politeness.grant, own, otherKey, orderly.keys]
  bounded := by
    intro other grant member
    by_cases own : other = domain
    · simp only [Politeness.grant, if_pos own, List.mem_append, List.mem_singleton] at member
      rcases member with old | rfl
      · exact orderly.bounded other grant old
      · exact bounded
    · simp only [Politeness.grant, if_neg own] at member
      exact orderly.bounded other grant member
  spaced := by
    intro other
    by_cases own : other = domain
    · subst own
      simp only [Politeness.grant, if_true]
      exact (orderly.spaced other).concat ended
    · simp only [Politeness.grant, if_neg own]
      exact orderly.spaced other
  acquired := by
    intro worker request returned
    obtain ⟨grant, member, own⟩ := orderly.acquired worker request returned
    refine ⟨grant, ?_, own⟩
    by_cases same : request.domain = domain
    · simp only [Politeness.grant, if_pos same]
      exact List.mem_append_left _ member
    · simp only [Politeness.grant, if_neg same]
      exact member

theorem Orderly.refused (orderly : Orderly config s) {domain : Text} {delay wait : Nat}
    {gone : Bool}
    (result : politenessLease (s.keys (config.leaseKey domain)) s.clock delay gone = (none, wait)) :
    ∃ last, (s.grants domain).getLast? = some last ∧ s.clock / 1000 < last.leaseEnd ∧
      wait = last.leaseEnd - s.clock / 1000 := by
  rw [orderly.keys] at result
  cases isLast : (s.grants domain).getLast? with
  | none =>
      -- without a key nothing is refused
      have free : nextAllowed none s.clock gone = 0 := rfl
      rw [isLast, Option.map_none] at result
      simp [politenessLease, free] at result
  | some last =>
      rw [isLast, Option.map_some] at result
      have bounded := orderly.bounded domain last (List.mem_of_getLast? isLast)
      exact ⟨last, rfl, politenessLease_wait bounded result⟩

/-- What one evaluation of the script leaves. -/
theorem Orderly.evaluate (orderly : Orderly config s) {worker delay : Nat}
    {request : PolitenessRequest} {gone : Bool} (inRange : s.clock / 1000 + delay ≤ 2 ^ 53)
    {evaluated : Politeness} {wait : Nat}
    (result : s.evaluate config worker request delay gone = (evaluated, wait)) :
    Orderly config evaluated ∧ (wait = 0 → ∃ grant ∈ evaluated.grants request.domain,
      grant.worker = worker ∧ grant.delayMillis = delay) := by
  unfold Politeness.evaluate at result
  dsimp only at result
  cases outcome : politenessLease (s.keys (config.leaseKey request.domain)) s.clock delay gone with
  | mk lease reply =>
      rw [outcome] at result
      cases lease with
      | some lease =>
          obtain ⟨rfl, rfl⟩ := politenessLease_set inRange outcome
          cases result
          have set : (politenessLease (s.keys (config.leaseKey request.domain)) s.clock delay
              gone).1.isSome = true := by
            rw [outcome]
            rfl
          have bounded : (Grant.mk worker (s.clock / 1000) delay).leaseEnd ≤ 2 ^ 53 := inRange
          refine ⟨orderly.grant bounded (orderly.ended set), ?_⟩
          intro _
          refine ⟨⟨worker, s.clock / 1000, delay⟩, ?_, rfl, rfl⟩
          simp [Politeness.grant]
      | none =>
          cases result
          refine ⟨orderly, ?_⟩
          intro zero
          obtain ⟨last, _, before, same⟩ := orderly.refused outcome
          omega

theorem Orderly.fail (orderly : Orderly config s) (worker : Nat) (request : PolitenessRequest)
    (error : RedisPolitenessGateError) : Orderly config (s.fail worker request error) :=
  orderly.setAcquisition fun _ same => by cases same

theorem Orderly.ask (orderly : Orderly config s) {worker : Nat} {request : PolitenessRequest}
    {gone : Bool} {evaluation : Evaluation}
    (inRange : s.clock / 1000 + request.minimumDelay / 1000000 ≤ 2 ^ 53) :
    Orderly config (s.ask config worker request gone evaluation) := by
  unfold Politeness.ask
  split
  · exact orderly.fail worker request _
  · rename_i delay success
    cases result : s.evaluate config worker request delay gone with
    | mk evaluated wait =>
        rw [← delayMillis_eq_ok success] at inRange
        obtain ⟨kept, granted⟩ := orderly.evaluate inRange result
        dsimp only
        split
        · exact orderly.fail worker request _
        · exact kept.fail worker request _
        · split
          · rename_i zero
            apply kept.setAcquisition
            intro other same
            cases same
            rw [← delayMillis_eq_ok success]
            exact granted zero
          · exact kept.setAcquisition fun _ same => by cases same

theorem step_orderly (config : RedisPolitenessConfig) (s : Politeness) (action : PolitenessAction)
    (inRange : InLuaRange s action) (orderly : Orderly config s) :
    Orderly config (s.step config action) := by
  cases action with
  | acquire worker request =>
      simp only [Politeness.step, Politeness.acquire]
      split
      · exact orderly.setAcquisition fun _ same => by cases same
      · exact orderly.setAcquisition fun _ same => by cases same
  | evaluate worker elapsed gone evaluation =>
      simp only [Politeness.step]
      split
      · rename_i request asking
        simp only [InLuaRange, asking] at inRange
        exact (orderly.later (s.clock + elapsed)).ask inRange
      · exact orderly.later (s.clock + elapsed)
  | wake worker =>
      simp only [Politeness.step]
      split
      · exact orderly.setAcquisition fun _ same => by cases same
      · exact orderly
  | cancel worker =>
      simp only [Politeness.step]
      split
      · exact orderly.setAcquisition fun _ same => by cases same
      · exact orderly.setAcquisition fun _ same => by cases same
      · exact orderly

/-- In every state with orderly leases, a refusal announces the end of the lease. -/
theorem Orderly.announced (orderly : Orderly config s) (action : PolitenessAction) :
    Announced config s action := by
  cases action with
  | evaluate worker elapsed gone evaluation =>
      simp only [Announced]
      split
      · rename_i request _
        intro millis _ refused
        cases outcome : politenessLease (s.keys (config.leaseKey request.domain))
            (s.clock + elapsed) millis gone with
        | mk lease wait =>
            rw [outcome] at refused
            cases refused
            obtain ⟨last, isLast, before, rfl⟩ :=
              (orderly.later (s.clock + elapsed)).refused outcome
            have bounded := orderly.bounded _ last (List.mem_of_getLast? isLast)
            refine ⟨by omega, ?_⟩
            intro later _ delay gone
            have stored : s.keys (config.leaseKey request.domain) = some last.lease := by
              rw [orderly.keys, isLast]
              rfl
            rw [stored, Grant.lease, politenessLease_isSome_iff_end bounded]
            dsimp only
            omega
      · trivial
  | _ => trivial

end Runs

/-- In every run in which the ends of the leases asked for are numbers that Lua
holds, the leases of a domain are spaced by their delays, nobody acquires without
one, and every refusal announces the time that remains. -/
theorem politeness_across_replicas (config : RedisPolitenessConfig) (clock : Nat)
    (actions : List PolitenessAction)
    (inRange : Guarded (Politeness.step config) InLuaRange (.initial clock) actions) :
    let s := run (Politeness.step config) (.initial clock) actions
    (∀ domain, Spaced (s.grants domain)) ∧
      (∀ worker request, s.acquisitions worker = some (.returned request (.ok ())) →
        ∃ grant ∈ s.grants request.domain, grant.worker = worker ∧
          grant.delayMillis = request.minimumDelay / 1000000) ∧
      Guarded (Politeness.step config) (Announced config) (.initial clock) actions := by
  intro s
  have orderly : Orderly config s :=
    run_invariant_of_guarded (step_orderly config) _ actions inRange (initial_orderly config clock)
  refine ⟨orderly.spaced, orderly.acquired, ?_⟩
  have start := initial_orderly config clock
  clear orderly s
  generalize Politeness.initial clock = first at inRange start
  induction actions generalizing first with
  | nil => trivial
  | cons action rest ih =>
      exact ⟨start.announced action,
        ih _ inRange.2 (step_orderly config first action inRange.1 start)⟩

/-- Two workers with the default delay of a second. -/
theorem politeness_of_two_workers :
    let request : PolitenessRequest := ⟨"fixture.example".toList, 1000000000⟩
    let s := run (Politeness.step .default) (.initial 1700000000000000)
      [.acquire 0 request, .acquire 1 request, .evaluate 0 0 false .answered,
        .evaluate 1 400000 false .answered, .wake 1, .evaluate 1 600000 true .answered]
    s.grants request.domain = [⟨0, 1700000000000, 1000⟩, ⟨1, 1700000001000, 1000⟩] ∧
      Spaced (s.grants request.domain) := by
  intro request s
  exact ⟨by decide +kernel,
    (politeness_across_replicas .default _ _ (by decide +kernel)).1 request.domain⟩

/-- Beyond Lua's integers the announced wait is not the time that remains. -/
theorem rounded_wait :
    let request : PolitenessRequest := ⟨"fixture.example".toList, 9007199254740994000000⟩
    let s := run (Politeness.step .default) (.initial 1700000000000000)
      [.acquire 0 request, .acquire 1 request, .evaluate 0 0 false .answered]
    let stored := s.keys (RedisPolitenessConfig.default.leaseKey request.domain)
    (politenessLease stored 1700000000001000 9007199254740994 false) = (none, 9007199254740992) ∧
      stored.map Lease.nextAllowed = some (1700000000001 + 9007199254740993) ∧
      ¬ Announced .default s (.evaluate 1 1000 false .answered) := by
  intro request s stored
  refine ⟨by decide +kernel, by decide +kernel, ?_⟩
  intro announced
  have asking : s.acquisitions 1 = some (.asking request) := by decide +kernel
  simp only [Announced, asking] at announced
  obtain ⟨_, onTime⟩ := announced 9007199254740994 (by decide +kernel) (by decide +kernel)
  have early := (onTime 9008899254740993000 (by decide +kernel) 1000 false).mpr (by decide +kernel)
  revert early
  decide +kernel

end TechAtlas.Queue
