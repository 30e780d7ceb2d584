import TechAtlas.Store.Keys

set_option autoImplicit false

/- The row constraints of the crawl tables hold in every reachable store: each
statement that writes a row checks it. -/
namespace TechAtlas.Store

open Library

variable {db next : Database} {names : Text → Prop}

structure RowsValid (db : Database) : Prop where
  attempts : ∀ attempt ∈ db.attempts, attempt.valid = true
  policies : ∀ policy ∈ db.policies, policy.valid = true

section Statements

theorem RowsValid.updateAttempt {id : Uuid} {change : AttemptRow → AttemptRow}
    (valid : RowsValid db) (success : db.updateAttempt id change = some next) :
    RowsValid next := by
  obtain ⟨checked, rfl⟩ := updateAttempt_eq_some.mp success
  refine ⟨?_, valid.policies⟩
  intro attempt member
  rcases mem_updateWhere_cases member with ⟨old, _⟩ | ⟨old, inTable, selected, rfl⟩
  · exact valid.attempts attempt old
  · have same : old.id = id := by simpa using selected
    exact (checked old inTable same).2

theorem RowsValid.rewrite {selected : PolicyRow → Bool} {change : PolicyRow → PolicyRow}
    (valid : RowsValid db)
    (checked : ∀ policy ∈ db.policies, selected policy = true → (change policy).valid = true)
    (attempts : next.attempts = db.attempts)
    (policies : next.policies = updateWhere selected change db.policies) : RowsValid next := by
  refine ⟨attempts ▸ valid.attempts, ?_⟩
  intro policy member
  rw [policies] at member
  rcases mem_updateWhere_cases member with ⟨old, _⟩ | ⟨old, inTable, chosen, rfl⟩
  · exact valid.policies policy old
  · exact checked old inTable chosen

theorem RowsValid.updatePolicy {domainId : Uuid} {change : PolicyRow → PolicyRow}
    (valid : RowsValid db) (success : db.updatePolicy domainId change = some next) :
    RowsValid next := by
  obtain ⟨checked, rfl⟩ := updatePolicies_eq_some.mp success
  exact valid.rewrite checked rfl rfl

theorem RowsValid.insertAttempt {attemptId : Uuid} {job : CrawlJobV1} {attemptNumber : Nat}
    {availableAt createdAt : Time} (valid : RowsValid db)
    (success : insertAttemptAndOutbox db attemptId job attemptNumber availableAt createdAt =
      some next) : RowsValid next := by
  obtain ⟨admitted, _, rfl⟩ := insertAttemptAndOutbox_eq_some.mp success
  refine ⟨?_, valid.policies⟩
  intro attempt member
  rcases List.mem_append.mp member with old | new
  · exact valid.attempts attempt old
  · rw [List.mem_singleton.mp new]
    exact (Bool.and_eq_true_iff.mp admitted).1

theorem RowsValid.of_same (valid : RowsValid db) (attempts : next.attempts = db.attempts)
    (policies : next.policies = db.policies) : RowsValid next :=
  ⟨attempts ▸ valid.attempts, policies ▸ valid.policies⟩

end Statements

section Transactions

theorem reserveDomain_rowsValid {now : Time} {fresh : FreshJob} {domainId : Uuid}
    {job : CrawlJobV1} (success : reserveDomain db now fresh domainId = .ok (next, job))
    (valid : RowsValid db) : RowsValid next := by
  simp only [reserveDomain, bind_eq_ok, orError_eq_ok] at success
  obtain ⟨queued, inserted, _, updated, same⟩ := success
  cases same
  exact (valid.insertAttempt inserted).updatePolicy updated

theorem recordSucceeded_rowsValid {attempt : AttemptRow} {now : Time}
    (success : recordSucceeded db attempt now = .ok next) (valid : RowsValid db) :
    RowsValid next := by
  simp only [recordSucceeded, bind_eq_ok, orError_eq_ok] at success
  obtain ⟨resolved, ended, updated⟩ := success
  exact (valid.updateAttempt ended).updatePolicy updated

theorem recordFailed_rowsValid {attempt : AttemptRow} {failure : CrawlFailure} {now : Time}
    {settings : SchedulerSettings} {fresh : FreshJob}
    (success : recordFailed db attempt failure now settings fresh = .ok next)
    (valid : RowsValid db) : RowsValid next := by
  simp only [recordFailed, bind_eq_ok, orError_eq_ok, require_eq_ok] at success
  obtain ⟨resolved, ended, _, _, branch⟩ := success
  have failed := valid.updateAttempt ended
  split at branch
  · simp only [bind_eq_ok, orError_eq_ok] at branch
    obtain ⟨_, _, _, _, queued, inserted, updated⟩ := branch
    exact (failed.insertAttempt inserted).updatePolicy updated
  · exact failed.updatePolicy (orError_eq_ok.mp branch)

theorem persistSuccess_rowsValid {attempt : AttemptRow} {record : SuccessfulCrawlRecord}
    {fresh : FreshSnapshot} (success : persistSuccess db attempt record fresh = .ok next)
    (valid : RowsValid db) : RowsValid next := by
  simp only [persistSuccess, bind_eq_ok, orError_eq_ok, insertSnapshot, Option.map_eq_some_iff]
    at success
  obtain ⟨resolved, ended, _, ⟨_, _, rfl⟩, withCountry, countryDone, withArtifact, artifactDone,
    _, _, updated⟩ := success
  obtain ⟨_, rfl⟩ := insertCountry_eq_some countryDone
  obtain ⟨_, rfl⟩ := insertArtifact_eq_some artifactDone
  have after := valid.updateAttempt ended
  refine RowsValid.updatePolicy ?_ updated
  exact after.of_same rfl rfl

theorem retryTerminalAttempt_rowsValid {jobId : Uuid} {actorSubject : Text} {now : Time}
    {fresh : FreshJob}
    (success : retryTerminalAttempt db jobId actorSubject now fresh = .ok next)
    (valid : RowsValid db) : RowsValid next := by
  simp only [retryTerminalAttempt, bind_eq_ok, orError_eq_ok, require_eq_ok] at success
  obtain ⟨_, _, _, _, _, _, queued, inserted, rescheduled, updated, audited⟩ := success
  have after := (valid.insertAttempt inserted).updatePolicy updated
  rw [audit_eq_some audited]
  exact after.of_same rfl rfl

end Transactions

theorem move_rowsValid (move : Move names db next) (valid : RowsValid db) : RowsValid next := by
  cases move with
  | reserve _ _ success => exact reserveDomain_rowsValid success valid
  | claim _ success => exact valid.updateAttempt success
  | retry success => exact retryTerminalAttempt_rowsValid success valid
  | reschedule _ same checked =>
      have attempts := same.attempts
      have policies := same.policies
      exact valid.rewrite checked attempts policies
  | register _ _ _ _ _ _ same new =>
      refine ⟨?_, ?_⟩
      · rw [same.attempts]
        exact valid.attempts
      · rw [same.policies]
        intro policy member
        rcases List.mem_append.mp member with old | added
        · exact valid.policies policy old
        · rw [List.mem_singleton.mp added]
          exact new

theorem resolution_rowsValid {records : SuccessfulCrawlRecord → Prop} {bare : Bool}
    (resolution : Resolution records db bare next) (valid : RowsValid db) : RowsValid next := by
  cases resolution with
  | succeed _ _ success => exact persistSuccess_rowsValid success valid
  | bare _ success => exact recordSucceeded_rowsValid success valid
  | fail _ success => exact recordFailed_rowsValid success valid

theorem exec_rowsValid (crate : UrlCrate) (db : Database) (call : Call)
    (start : Keys db ∧ RowsValid db) :
    Keys (exec crate db call) ∧ RowsValid (exec crate db call) :=
  exec_invariant (fun _ _ move _ => move_rowsValid move)
    (fun _ _ _ resolution _ => resolution_rowsValid resolution)
    (fun _ _ valid => valid.of_same rfl rfl) db call start

theorem reached_rowsValid (crate : UrlCrate) (catalogue : Catalogue) (calls : List Call) :
    RowsValid (reached crate catalogue calls) := by
  have initial : RowsValid (Database.initial catalogue) := by
    constructor <;> intro row member <;> cases member
  have start := And.intro (initial_keys catalogue) initial
  exact (run_invariant (exec_rowsValid crate) (Database.initial catalogue) calls start).2

end TechAtlas.Store
