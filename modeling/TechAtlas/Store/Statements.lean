import TechAtlas.Library.Transition
import TechAtlas.Store.Schema

set_option autoImplicit false

/- The statements several transactions share, and what each of them leaves
alone. -/
namespace TechAtlas.Store

open Library

variable {db result : Database}

def Database.policyOf (db : Database) (domainId : Uuid) : Option PolicyRow :=
  db.policies.find? fun policy => policy.domainId == domainId

def Database.domainOf (db : Database) (domainId : Uuid) : Option DomainRow :=
  db.domains.find? fun domain => domain.id == domainId

/-- The active domain with the given name: at most one, by its unique index. -/
def Database.activeDomain (db : Database) (name : Text) : Option DomainRow :=
  db.domains.find? fun domain => domain.canonicalDomain == name && domain.isActive

def AttemptRow.activeFor (domainId : Uuid) (attempt : AttemptRow) : Bool :=
  attempt.domainId == domainId && attempt.status.isActive

/-- `EXISTS (... status IN ('queued', 'running'))`. -/
def Database.hasActiveAttempt (db : Database) (domainId : Uuid) : Bool :=
  db.attempts.any (AttemptRow.activeFor domainId)

/-- `crawl_attempts JOIN crawl_policies`, for the attempts a condition selects. -/
def Database.attemptWithPolicy (db : Database) (selected : AttemptRow → Bool) :
    Option (AttemptRow × PolicyRow) :=
  db.attempts.findSome? fun attempt =>
    if selected attempt then
      (db.policyOf attempt.domainId).map fun policy => (attempt, policy)
    else none

/-- `UPDATE crawl_attempts ... WHERE id = ...`, under the trigger that keeps
terminal attempts immutable. -/
def Database.updateAttempt (db : Database) (id : Uuid) (change : AttemptRow → AttemptRow) :
    Option Database :=
  (updateChecked (fun attempt => attempt.id == id) (fun attempt => !attempt.status.isTerminal)
    AttemptRow.valid change db.attempts).map fun attempts => { db with attempts := attempts }

def Database.updatePolicies (db : Database) (selected : PolicyRow → Bool)
    (change : PolicyRow → PolicyRow) : Option Database :=
  (updateChecked selected (fun _ => true) PolicyRow.valid change db.policies).map fun policies =>
    { db with policies := policies }

/-- `UPDATE crawl_policies ... WHERE domain_id = ...`. -/
def Database.updatePolicy (db : Database) (domainId : Uuid) (change : PolicyRow → PolicyRow) :
    Option Database :=
  db.updatePolicies (fun policy => policy.domainId == domainId) change

/-- The identifiers a new attempt draws. -/
structure FreshJob where
  attemptId : Uuid
  jobId : Uuid
  correlationId : Uuid
  deriving DecidableEq, Repr

/-- Primary key and `crawl_attempts_idempotency_key_unique`. -/
def admitsAttempt (attempts : List AttemptRow) (row : AttemptRow) : Bool :=
  row.valid && attempts.all fun old =>
    old.id != row.id && old.idempotencyKey != row.idempotencyKey

def admitsOutbox (outbox : List OutboxRow) (row : OutboxRow) : Bool :=
  row.valid && outbox.all fun old =>
    old.crawlAttemptId != row.crawlAttemptId && old.jobId != row.jobId &&
      old.idempotencyKey != row.idempotencyKey

def queuedAttempt (id : Uuid) (job : CrawlJobV1) (attemptNumber : Nat)
    (availableAt createdAt : Time) : AttemptRow where
  id := id
  domainId := job.domainId
  jobId := job.jobId
  correlationId := job.correlationId
  idempotencyKey := job.idempotencyKey
  attemptNumber := attemptNumber
  status := .queued
  queuedAt := availableAt
  startedAt := none
  finishedAt := none
  failureCode := none
  failureSummary := none
  createdAt := createdAt

def unpublished (attemptId : Uuid) (job : CrawlJobV1) (availableAt createdAt : Time) :
    OutboxRow where
  crawlAttemptId := attemptId
  domainId := job.domainId
  jobId := job.jobId
  correlationId := job.correlationId
  idempotencyKey := job.idempotencyKey
  availableAt := availableAt
  nextPublishAt := availableAt
  publishAttemptCount := 0
  publishedAt := none
  terminalFailureAt := none
  lastErrorSummary := none
  createdAt := createdAt
  updatedAt := createdAt

def insertAttemptAndOutbox (db : Database) (attemptId : Uuid) (job : CrawlJobV1)
    (attemptNumber : Nat) (availableAt createdAt : Time) : Option Database :=
  (insertChecked admitsAttempt (queuedAttempt attemptId job attemptNumber availableAt createdAt)
    db.attempts).bind fun attempts =>
      (insertChecked admitsOutbox (unpublished attemptId job availableAt createdAt)
        db.outbox).map fun outbox => { db with attempts := attempts, outbox := outbox }

/-- `admin_audit_events` rejects a blank actor. -/
def Database.audit (db : Database) (event : AuditEvent) : Option Database :=
  if (btrim event.actorSubject).isEmpty then none
  else some { db with auditEvents := db.auditEvents ++ [event] }

theorem updateAttempt_eq_some {id : Uuid} {change : AttemptRow → AttemptRow} :
    db.updateAttempt id change = some result ↔
      (∀ attempt ∈ db.attempts, attempt.id = id →
        attempt.status.isTerminal = false ∧ (change attempt).valid = true) ∧
      result = { db with
        attempts := updateWhere (fun attempt => attempt.id == id) change db.attempts } := by
  simp only [Database.updateAttempt, Option.map_eq_some_iff, updateChecked_eq_some, beq_iff_eq,
    Bool.not_eq_true']
  constructor
  · intro success
    obtain ⟨attempts, ⟨checked, rfl⟩, rfl⟩ := success
    exact ⟨checked, rfl⟩
  · intro success
    obtain ⟨checked, rfl⟩ := success
    exact ⟨_, ⟨checked, rfl⟩, rfl⟩

theorem updatePolicies_eq_some {selected : PolicyRow → Bool} {change : PolicyRow → PolicyRow} :
    db.updatePolicies selected change = some result ↔
      (∀ policy ∈ db.policies, selected policy = true → (change policy).valid = true) ∧
      result = { db with policies := updateWhere selected change db.policies } := by
  simp only [Database.updatePolicies, Option.map_eq_some_iff, updateChecked_eq_some, true_and]
  constructor
  · intro success
    obtain ⟨policies, ⟨checked, rfl⟩, rfl⟩ := success
    exact ⟨checked, rfl⟩
  · intro success
    obtain ⟨checked, rfl⟩ := success
    exact ⟨_, ⟨checked, rfl⟩, rfl⟩

theorem insertAttemptAndOutbox_eq_some {attemptId : Uuid} {job : CrawlJobV1} {attemptNumber : Nat}
    {availableAt createdAt : Time} :
    insertAttemptAndOutbox db attemptId job attemptNumber availableAt createdAt = some result ↔
      admitsAttempt db.attempts
          (queuedAttempt attemptId job attemptNumber availableAt createdAt) = true ∧
        admitsOutbox db.outbox (unpublished attemptId job availableAt createdAt) = true ∧
        result = { db with
          attempts := db.attempts ++
            [queuedAttempt attemptId job attemptNumber availableAt createdAt]
          outbox := db.outbox ++ [unpublished attemptId job availableAt createdAt] } := by
  simp only [insertAttemptAndOutbox, Option.bind_eq_some_iff, Option.map_eq_some_iff,
    insertChecked_eq_some]
  constructor
  · intro success
    obtain ⟨attempts, ⟨admitted, rfl⟩, outbox, ⟨allowed, rfl⟩, rfl⟩ := success
    exact ⟨admitted, allowed, rfl⟩
  · intro success
    obtain ⟨admitted, allowed, rfl⟩ := success
    exact ⟨_, ⟨admitted, rfl⟩, _, ⟨allowed, rfl⟩, rfl⟩

theorem admitsAttempt_fresh {attempts : List AttemptRow} {row : AttemptRow}
    (admitted : admitsAttempt attempts row = true) : ∀ old ∈ attempts, old.id ≠ row.id := by
  simp only [admitsAttempt, Bool.and_eq_true, List.all_eq_true, bne_iff_ne] at admitted
  exact fun old member => (admitted.2 old member).1

theorem audit_eq_some {event : AuditEvent} (success : db.audit event = some result) :
    result = { db with auditEvents := db.auditEvents ++ [event] } := by
  unfold Database.audit at success
  split at success
  · cases success
  · exact (Option.some.inj success).symm

theorem policyOf_eq_some {domainId : Uuid} {policy : PolicyRow}
    (found : db.policyOf domainId = some policy) :
    policy ∈ db.policies ∧ policy.domainId = domainId := by
  obtain ⟨member, same⟩ := find?_eq_some_mem found
  exact ⟨member, by simpa using same⟩

theorem policyOf_updateWhere {selected : PolicyRow → Bool} {change : PolicyRow → PolicyRow}
    (policies : result.policies = updateWhere selected change db.policies)
    (keeps : ∀ policy, (change policy).domainId = policy.domainId) (domainId : Uuid) :
    result.policyOf domainId = (db.policyOf domainId).map fun policy =>
      if selected policy then change policy else policy := by
  have same : ((fun policy : PolicyRow => policy.domainId == domainId) ∘ fun policy =>
      if selected policy then change policy else policy) =
        fun policy => policy.domainId == domainId := by
    funext policy
    show ((if selected policy then change policy else policy).domainId == domainId) = _
    split
    · rw [keeps]
    · rfl
  rw [Database.policyOf, policies, updateWhere, List.find?_map, same]
  rfl

theorem policyOf_updateWhere_other {selected : PolicyRow → Bool} {change : PolicyRow → PolicyRow}
    (policies : result.policies = updateWhere selected change db.policies)
    (keeps : ∀ policy, (change policy).domainId = policy.domainId) {domainId : Uuid}
    (skipped : ∀ policy ∈ db.policies, policy.domainId = domainId → selected policy = false) :
    result.policyOf domainId = db.policyOf domainId := by
  rw [policyOf_updateWhere policies keeps]
  cases held : db.policyOf domainId with
  | none => rfl
  | some policy =>
      obtain ⟨member, same⟩ := policyOf_eq_some held
      rw [Option.map_some, skipped policy member same]
      rfl

theorem attemptWithPolicy_eq_some {selected : AttemptRow → Bool} {attempt : AttemptRow}
    {policy : PolicyRow} (found : db.attemptWithPolicy selected = some (attempt, policy)) :
    attempt ∈ db.attempts ∧ selected attempt = true ∧ policy ∈ db.policies ∧
      policy.domainId = attempt.domainId := by
  obtain ⟨row, member, selectedRow⟩ := List.exists_of_findSome?_eq_some found
  split at selectedRow
  · rename_i chosen
    obtain ⟨joined, foundPolicy, same⟩ := Option.map_eq_some_iff.mp selectedRow
    obtain ⟨rfl, rfl⟩ := Prod.mk.inj same
    obtain ⟨inPolicies, sameDomain⟩ := policyOf_eq_some foundPolicy
    exact ⟨member, chosen, inPolicies, sameDomain⟩
  · cases selectedRow

end TechAtlas.Store
