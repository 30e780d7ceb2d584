import TechAtlas.Store.Worker
import TechAtlas.Store.Domains
import TechAtlas.Store.Admin

set_option autoImplicit false

/- The store as a transition system: each call is one transaction, which either
commits or leaves the store as it was. -/
namespace TechAtlas.Store

open Library

/-- What the components ask of the store. The unaudited `create` is left out: no component
calls it, and a domain is registered with its audit event. -/
inductive Call
  | createWithAudit (id : Uuid) (domain : CanonicalDomain) (policy : CrawlPolicy)
      (actorSubject : Text) (now : Time)
  | importCsv (command : CsvImportCommand) (policy : CrawlPolicy) (fresh : FreshImport)
      (now : Time)
  | reserveDue (now : Time) (limit : Nat) (fresh : Uuid → FreshJob)
  | markPublished (jobId : Uuid) (now : Time)
  | recordPublishFailure (jobId : Uuid) (now : Time) (settings : SchedulerSettings)
  | claimAttempt (job : CrawlJobV1) (startedAt : Time)
  | recordSuccess (job : CrawlJobV1) (record : SuccessfulCrawlRecord) (fresh : FreshSnapshot)
  | recordFailure (job : CrawlJobV1) (failure : CrawlFailure) (finishedAt : Time)
      (settings : SchedulerSettings) (fresh : FreshJob)
  | recordAttemptOutcome (jobId : Uuid) (outcome : CrawlAttemptOutcome) (now : Time)
      (settings : SchedulerSettings) (fresh : FreshJob)
  | retryTerminalAttempt (jobId : Uuid) (actorSubject : Text) (now : Time) (fresh : FreshJob)
  | requestDomainCrawl (domain : CanonicalDomain) (actorSubject : Text) (now : Time)
  | requestRefresh (domain : CanonicalDomain) (requestedAt : Time) (cooldown : Duration)
  | scheduleCountryEnrichmentRecrawl (actorSubject : Text) (now : Time)
  | scheduleImportBatchRecrawl (importId : Uuid) (actorSubject : Text) (now : Time)
  | updatePolicy (domain : CanonicalDomain) (policy : AdminCrawlPolicy) (actorSubject : Text)
      (now : Time)

/-- `record_attempt_outcome(Succeeded)`, which no component calls: workers
record a success with its snapshot. -/
def Call.isBareSuccess : Call → Bool
  | .recordAttemptOutcome _ .succeeded _ _ _ => true
  | _ => false

/-- The scheduler's reports on publishing a job. -/
def Call.isPublication : Call → Bool
  | .markPublished _ _ => true
  | .recordPublishFailure _ _ _ => true
  | _ => false

/-- The committed store, when the transaction succeeds. -/
def transact (crate : UrlCrate) (db : Database) : Call → Option Database
  | .createWithAudit id domain policy actorSubject now =>
      ((createWithAudit crate db id domain policy actorSubject now).map Prod.fst).toOption
  | .importCsv command policy fresh now =>
      (importCsv crate db command policy fresh now).map Prod.fst
  | .reserveDue now limit fresh => ((reserveDue db now limit fresh).map Prod.fst).toOption
  | .markPublished jobId now => (markPublished db jobId now).toOption
  | .recordPublishFailure jobId now settings =>
      (recordPublishFailure db jobId now settings).toOption
  | .claimAttempt job startedAt => ((claimAttempt crate db job startedAt).map Prod.fst).toOption
  | .recordSuccess job record fresh => (recordSuccess db job record fresh).toOption
  | .recordFailure job failure finishedAt settings fresh =>
      (recordFailure db job failure finishedAt settings fresh).toOption
  | .recordAttemptOutcome jobId outcome now settings fresh =>
      (recordAttemptOutcome db jobId outcome now settings fresh).toOption
  | .retryTerminalAttempt jobId actorSubject now fresh =>
      (retryTerminalAttempt db jobId actorSubject now fresh).toOption
  | .requestDomainCrawl domain actorSubject now =>
      (requestDomainCrawl db domain actorSubject now).toOption
  | .requestRefresh domain requestedAt cooldown =>
      ((requestRefresh db domain requestedAt cooldown).map Prod.fst).toOption
  | .scheduleCountryEnrichmentRecrawl actorSubject now =>
      ((scheduleCountryEnrichmentRecrawl db actorSubject now).map Prod.fst).toOption
  | .scheduleImportBatchRecrawl importId actorSubject now =>
      ((scheduleImportBatchRecrawl db importId actorSubject now).map Prod.fst).toOption
  | .updatePolicy domain policy actorSubject now =>
      (updatePolicy db domain policy actorSubject now).toOption

def exec (crate : UrlCrate) (db : Database) (call : Call) : Database :=
  (transact crate db call).getD db

/-- The store after the calls, from the state the migrations leave. -/
def reached (crate : UrlCrate) (catalogue : Catalogue) (calls : List Call) : Database :=
  run (exec crate) (Database.initial catalogue) calls

theorem recoverEach_run (crate : UrlCrate) (now : Time) (settings : SchedulerSettings)
    (fresh : Uuid → FreshJob) (db : Database) (jobIds : List Uuid) :
    ∃ calls, (∀ call ∈ calls, call.isPublication = false) ∧
      (recoverEach now settings fresh db jobIds).1 = run (exec crate) db calls := by
  induction jobIds generalizing db with
  | nil => exact ⟨[], by simp, rfl⟩
  | cons jobId rest ih =>
      unfold recoverEach
      split
      · rename_i next success
        obtain ⟨calls, silent, same⟩ := ih next
        refine ⟨.recordAttemptOutcome jobId (.failed leaseExpired) now settings (fresh jobId) ::
          calls, ?_, ?_⟩
        · intro call member
          rcases List.mem_cons.mp member with rfl | later
          · rfl
          · exact silent call later
        · rw [same, run_cons, exec, transact, success]
          rfl
      · exact ⟨[], by simp, rfl⟩

/-- A recovery pass is a run of failed outcomes, one transaction each. -/
theorem recoverStaleAttempts_run (crate : UrlCrate) (db : Database) (now : Time)
    (staleAfter : Duration) (limit : Nat) (settings : SchedulerSettings)
    (fresh : Uuid → FreshJob) :
    ∃ calls, (∀ call ∈ calls, call.isPublication = false) ∧
      (recoverStaleAttempts db now staleAfter limit settings fresh).1 =
        run (exec crate) db calls := by
  unfold recoverStaleAttempts
  split
  · exact ⟨[], by simp, rfl⟩
  · split
    · exact ⟨[], by simp, rfl⟩
    · rename_i staleBefore _
      split
      · exact ⟨[], by simp, rfl⟩
      · obtain ⟨calls, silent, same⟩ :=
          recoverEach_run crate now settings fresh db (staleJobIds db staleBefore limit)
        refine ⟨calls, silent, ?_⟩
        rw [← same]
        dsimp only
        split <;> rename_i equation <;> rw [equation]

end TechAtlas.Store
