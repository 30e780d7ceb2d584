import TechAtlas.Store.Moves

set_option autoImplicit false

/- The keys of the crawl tables. A row keeps its identity through every update,
and the unique columns let a job name one attempt. -/
namespace TechAtlas.Store

open Library

variable {db next : Database} {names : Text → Prop}

/-- The columns no statement updates. -/
structure AttemptIdentity where
  id : Uuid
  domainId : Uuid
  jobId : Uuid
  idempotencyKey : IdempotencyKey

def AttemptRow.identity (attempt : AttemptRow) : AttemptIdentity where
  id := attempt.id
  domainId := attempt.domainId
  jobId := attempt.jobId
  idempotencyKey := attempt.idempotencyKey

structure Keys (db : Database) : Prop where
  policyKeys : (db.policies.map PolicyRow.domainId).Nodup
  attemptIds : (db.attempts.map AttemptRow.id).Nodup
  attemptJobs : (db.attempts.map AttemptRow.jobId).Nodup
  jobKeys : ∀ attempt ∈ db.attempts, attempt.idempotencyKey = .crawl attempt.jobId
  known : ∀ attempt ∈ db.attempts, attempt.domainId ∈ db.policies.map PolicyRow.domainId

theorem Keys.attempt_eq (keys : Keys db) {left right : AttemptRow} (inLeft : left ∈ db.attempts)
    (inRight : right ∈ db.attempts) (same : left.id = right.id) : left = right :=
  eq_of_key_eq keys.attemptIds inLeft inRight same

theorem Keys.attempt_eq_of_job (keys : Keys db) {left right : AttemptRow}
    (inLeft : left ∈ db.attempts) (inRight : right ∈ db.attempts)
    (same : left.jobId = right.jobId) : left = right :=
  eq_of_key_eq keys.attemptJobs inLeft inRight same

/-- The keys only depend on the identities of the attempts and the domains of
the policies. -/
theorem Keys.of_same (keys : Keys db)
    (policies : next.policies.map PolicyRow.domainId = db.policies.map PolicyRow.domainId)
    (attempts : next.attempts.map AttemptRow.identity = db.attempts.map AttemptRow.identity) :
    Keys next := by
  have ids : next.attempts.map AttemptRow.id = db.attempts.map AttemptRow.id := by
    simpa [Function.comp_def, AttemptRow.identity] using congrArg (List.map AttemptIdentity.id) attempts
  have jobs : next.attempts.map AttemptRow.jobId = db.attempts.map AttemptRow.jobId := by
    simpa [Function.comp_def, AttemptRow.identity] using
      congrArg (List.map AttemptIdentity.jobId) attempts
  have origin : ∀ attempt ∈ next.attempts, ∃ old ∈ db.attempts,
      old.identity = attempt.identity := by
    intro attempt member
    have inMap : attempt.identity ∈ next.attempts.map AttemptRow.identity :=
      List.mem_map.mpr ⟨attempt, member, rfl⟩
    rw [attempts] at inMap
    exact List.mem_map.mp inMap
  refine ⟨policies ▸ keys.policyKeys, ids ▸ keys.attemptIds, jobs ▸ keys.attemptJobs, ?_, ?_⟩
  · intro attempt member
    obtain ⟨old, inTable, same⟩ := origin attempt member
    have sameKey := congrArg AttemptIdentity.idempotencyKey same
    have sameJob := congrArg AttemptIdentity.jobId same
    simp only [AttemptRow.identity] at sameKey sameJob
    rw [← sameKey, ← sameJob]
    exact keys.jobKeys old inTable
  · intro attempt member
    obtain ⟨old, inTable, same⟩ := origin attempt member
    have sameDomain := congrArg AttemptIdentity.domainId same
    simp only [AttemptRow.identity] at sameDomain
    rw [policies, ← sameDomain]
    exact keys.known old inTable

theorem Keys.enqueue {row : AttemptRow} (keys : Keys db)
    (policies : next.policies.map PolicyRow.domainId = db.policies.map PolicyRow.domainId)
    (attempts : next.attempts = db.attempts ++ [row])
    (admitted : admitsAttempt db.attempts row = true)
    (jobKey : row.idempotencyKey = .crawl row.jobId)
    (known : row.domainId ∈ db.policies.map PolicyRow.domainId) : Keys next := by
  simp only [admitsAttempt, Bool.and_eq_true, List.all_eq_true, bne_iff_ne] at admitted
  obtain ⟨_, fresh⟩ := admitted
  refine ⟨policies ▸ keys.policyKeys, ?_, ?_, ?_, ?_⟩
  · rw [attempts]
    exact nodup_map_concat keys.attemptIds fun old member => (fresh old member).1
  · rw [attempts]
    refine nodup_map_concat keys.attemptJobs ?_
    intro old member same
    apply (fresh old member).2
    rw [keys.jobKeys old member, jobKey, same]
  · intro attempt member
    rw [attempts, List.mem_append, List.mem_singleton] at member
    rcases member with old | rfl
    · exact keys.jobKeys attempt old
    · exact jobKey
  · intro attempt member
    rw [attempts, List.mem_append, List.mem_singleton] at member
    rw [policies]
    rcases member with old | rfl
    · exact keys.known attempt old
    · exact known

theorem move_keys (move : Move names db next) (keys : Keys db) : Keys next := by
  cases move with
  | reserve known idle success =>
      obtain ⟨admitted, _, rfl⟩ := reserveDomain_eq_ok success
      obtain ⟨policy, inPolicies, same⟩ := known
      refine keys.enqueue ?_ rfl admitted rfl (List.mem_map.mpr ⟨policy, inPolicies, same⟩)
      exact updateWhere_map _ (fun _ => by rfl) _
  | claim member success =>
      obtain ⟨_, rfl⟩ := updateAttempt_eq_some.mp success
      refine keys.of_same rfl ?_
      exact updateWhere_map _ (fun _ => by rfl) _
  | retry success =>
      obtain ⟨attempt, member, _, _, _, _, _, _, _, admitted, _, rfl⟩ :=
        retryTerminalAttempt_eq_ok success
      refine keys.enqueue ?_ rfl admitted rfl (keys.known attempt member)
      exact updateWhere_map _ (fun _ => by rfl) _
  | reschedule keeps same =>
      refine keys.of_same ?_ (by rw [same.attempts])
      rw [same.policies]
      exact updateWhere_map _ keeps.domainId _
  | register fresh _ _ _ _ _ same =>
      refine ⟨?_, ?_, ?_, ?_, ?_⟩
      · rw [same.policies]
        exact nodup_map_concat keys.policyKeys fresh
      · rw [same.attempts]
        exact keys.attemptIds
      · rw [same.attempts]
        exact keys.attemptJobs
      · rw [same.attempts]
        exact keys.jobKeys
      · rw [same.attempts, same.policies]
        intro attempt member
        rw [List.map_append]
        exact List.mem_append_left _ (keys.known attempt member)

theorem resolution_keys {records : SuccessfulCrawlRecord → Prop} {bare : Bool}
    (resolution : Resolution records db bare next) (keys : Keys db) : Keys next := by
  cases resolution with
  | succeed member _ success =>
      obtain ⟨_, _, _, _, _, _, rfl⟩ := persistSuccess_eq_ok success
      refine keys.of_same ?_ ?_ <;> exact updateWhere_map _ (fun _ => by rfl) _
  | bare member success =>
      obtain ⟨_, rfl⟩ := recordSucceeded_eq_ok success
      refine keys.of_same ?_ ?_ <;> exact updateWhere_map _ (fun _ => by rfl) _
  | @fail _ attempt failure now settings fresh member success =>
      -- the keys hold between the two statements, then the retry is queued
      have between : Keys { db with
          attempts := updateWhere (fun row => row.id == attempt.id)
            (AttemptRow.failedAt now failure) db.attempts } := by
        refine keys.of_same rfl ?_
        exact updateWhere_map _ (fun _ => by rfl) _
      obtain ⟨_, ⟨retryAt, _, admitted, _, rfl⟩ | ⟨_, rfl⟩⟩ := recordFailed_cases success
      · refine between.enqueue ?_ rfl admitted rfl (keys.known attempt member)
        exact updateWhere_map _ (fun _ => by rfl) _
      · refine between.of_same ?_ rfl
        exact updateWhere_map _ (fun _ => by rfl) _

theorem initial_keys (catalogue : Catalogue) : Keys (Database.initial catalogue) := by
  refine ⟨List.nodup_nil, List.nodup_nil, List.nodup_nil, ?_, ?_⟩
  · intro attempt member
    cases member
  · intro attempt member
    cases member

theorem exec_keys (crate : UrlCrate) (db : Database) (call : Call) (keys : Keys db) :
    Keys (exec crate db call) := by
  cases exec_effect keys.policyKeys call with
  | moves moves => exact moves.invariant (fun _ _ => move_keys) keys
  | resolution resolution => exact resolution_keys resolution keys
  | publication _ same _ =>
      rw [same]
      exact keys.of_same rfl rfl

/-- The rule the invariants of the crawl tables are proved by: what every move
and every resolution preserves, every call preserves, if it does not depend on
the outbox. -/
theorem exec_invariant {P : Database → Prop} {crate : UrlCrate}
    (moved : ∀ {names} db next, Move names db next → Keys db → P db → P next)
    (resolved : ∀ {records} bare db next, Resolution records db bare next → Keys db → P db → P next)
    (unposted : ∀ db outbox, P db → P { db with outbox := outbox })
    (db : Database) (call : Call) (start : Keys db ∧ P db) :
    Keys (exec crate db call) ∧ P (exec crate db call) := by
  obtain ⟨keys, holds⟩ := start
  refine ⟨exec_keys crate db call keys, ?_⟩
  cases exec_effect keys.policyKeys call with
  | moves moves =>
      have step : ∀ db next, Move (registers crate call) db next → Keys db ∧ P db → Keys next ∧ P next :=
        fun db next move both => ⟨move_keys move both.1, moved db next move both.1 both.2⟩
      exact (moves.invariant step ⟨keys, holds⟩).2
  | resolution resolution => exact resolved _ db _ resolution keys holds
  | publication _ same _ =>
      rw [same]
      exact unposted db _ holds

section Owners

/-- A domain and its policy are inserted together, and neither is taken away. -/
def Owned (db : Database) : Prop :=
  db.domains.map DomainRow.id = db.policies.map PolicyRow.domainId

theorem Owned.of_same (owned : Owned db) (domains : next.domains = db.domains)
    (policies : next.policies.map PolicyRow.domainId = db.policies.map PolicyRow.domainId) :
    Owned next := by
  rw [Owned, domains, policies]
  exact owned

theorem move_owned {names : Text → Prop} (move : Move names db next) (owned : Owned db) :
    Owned next := by
  cases move with
  | reserve _ _ success =>
      obtain ⟨_, _, rfl⟩ := reserveDomain_eq_ok success
      exact owned.of_same rfl (updateWhere_map _ (fun _ => by rfl) _)
  | claim _ success =>
      obtain ⟨_, rfl⟩ := updateAttempt_eq_some.mp success
      exact owned.of_same rfl rfl
  | retry success =>
      obtain ⟨_, _, _, _, _, _, _, _, _, _, _, rfl⟩ := retryTerminalAttempt_eq_ok success
      exact owned.of_same rfl (updateWhere_map _ (fun _ => by rfl) _)
  | reschedule keeps same =>
      refine owned.of_same same.domains ?_
      rw [same.policies]
      exact updateWhere_map _ keeps.domainId _
  | register _ _ _ active _ _ same =>
      rw [Owned, same.domains, same.policies, List.map_append, List.map_append, owned,
        List.map_singleton, List.map_singleton, active.1]

theorem resolution_owned {records : SuccessfulCrawlRecord → Prop} {bare : Bool}
    (resolution : Resolution records db bare next) (owned : Owned db) : Owned next := by
  cases resolution with
  | succeed _ _ success =>
      obtain ⟨_, _, _, _, _, _, rfl⟩ := persistSuccess_eq_ok success
      exact owned.of_same rfl (updateWhere_map _ (fun _ => by rfl) _)
  | bare _ success =>
      obtain ⟨_, rfl⟩ := recordSucceeded_eq_ok success
      exact owned.of_same rfl (updateWhere_map _ (fun _ => by rfl) _)
  | fail _ success =>
      obtain ⟨_, ⟨_, _, _, _, rfl⟩ | ⟨_, rfl⟩⟩ := recordFailed_cases success <;>
        exact owned.of_same rfl (updateWhere_map _ (fun _ => by rfl) _)

theorem reached_owned (crate : UrlCrate) (catalogue : Catalogue) (calls : List Call) :
    Owned (reached crate catalogue calls) :=
  And.right (run_invariant (P := fun db => Keys db ∧ Owned db)
    (fun db call both => exec_invariant (fun _ _ move _ => move_owned move)
      (fun _ _ _ resolution _ => resolution_owned resolution) (fun _ _ owned => owned)
      db call both) _ _ ⟨initial_keys catalogue, rfl⟩)

/-- Every domain has a policy. -/
theorem Owned.policyOf (owned : Owned db) {domain : DomainRow} (member : domain ∈ db.domains) :
    ∃ policy, db.policyOf domain.id = some policy := by
  have known := List.mem_map_of_mem (f := DomainRow.id) member
  rw [owned] at known
  obtain ⟨policy, inPolicies, same⟩ := List.mem_map.mp known
  rw [← Option.isSome_iff_exists, Database.policyOf, List.find?_isSome]
  exact ⟨policy, inPolicies, beq_iff_eq.mpr same⟩

end Owners

end TechAtlas.Store
