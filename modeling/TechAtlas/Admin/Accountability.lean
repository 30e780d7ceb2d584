import TechAtlas.Library.Ledger
import TechAtlas.Domains.Imported

set_option autoImplicit false

/- The audit log beside the crawl store. What operators decide about a domain changes
with an event of the log only, and every request that commits has its event. -/
namespace TechAtlas.Admin

open Library Store Domains

section Specification

/-- The columns of a policy that only operators set. -/
structure CrawlSettings where
  isEnabled : Bool
  priority : CrawlPriority
  desiredInterval : Duration
  deriving DecidableEq

def settings (policy : PolicyRow) : CrawlSettings where
  isEnabled := policy.isEnabled
  priority := policy.priority
  desiredInterval := policy.desiredInterval

/-- None for a domain that is not registered. -/
def settingsOf (db : Database) (domainId : Uuid) : Option CrawlSettings :=
  (db.policyOf domainId).map settings

/-- The actor of a request that is audited, and the action. -/
def audited : Store.Call → Option (Text × String)
  | .createWithAudit _ _ _ actorSubject _ => some (actorSubject, "domain.created")
  | .importCsv command _ _ _ => some (command.initiatedBy, "import.created")
  | .retryTerminalAttempt _ actorSubject _ _ =>
      some (actorSubject, "crawl_attempt.retry_requested")
  | .requestDomainCrawl _ actorSubject _ => some (actorSubject, "domain.crawl_requested")
  | .scheduleCountryEnrichmentRecrawl actorSubject _ =>
      some (actorSubject, "country_enrichment.recrawl_requested")
  | .scheduleImportBatchRecrawl _ actorSubject _ => some (actorSubject, "import.recrawl_requested")
  | .updatePolicy _ _ actorSubject _ => some (actorSubject, "domain.policy_updated")
  | _ => none

/-- The event a call owes: one if it commits and is audited. -/
def owedEvents (crate : UrlCrate) (db : Database) (call : Store.Call) : List (Text × String) :=
  if (transact crate db call).isSome then (audited call).toList else []

/-- The event is about the domain, or about an import that accepted it. -/
def IsAbout (db : Database) (event : AuditEvent) (domainId : Uuid) : Prop :=
  ((event.action = "domain.created" ∨ event.action = "domain.policy_updated") ∧
    event.resourceId = domainId) ∨
  (event.action = "import.created" ∧ ∃ row ∈ db.importRows, row.importId = event.resourceId ∧
    row.status = .accepted ∧ row.domainId = some domainId)

def auditLog : Ledger Database AuditEvent Uuid (Option CrawlSettings) (Text × String) where
  log := Database.auditEvents
  label := fun event => (event.actorSubject, event.action)
  view := settingsOf
  names := IsAbout

end Specification

section Statements

variable {db mid next : Database} {event : AuditEvent}

/-- What neither the log nor its view shows. -/
structure Unaudited (db next : Database) : Prop where
  events : next.auditEvents = db.auditEvents
  rows : next.importRows = db.importRows
  view : ∀ domainId, settingsOf next domainId = settingsOf db domainId

theorem Unaudited.refl (db : Database) : Unaudited db db := ⟨rfl, rfl, fun _ => rfl⟩

theorem Unaudited.trans (first : Unaudited db mid) (second : Unaudited mid next) :
    Unaudited db next where
  events := second.events.trans first.events
  rows := second.rows.trans first.rows
  view := fun domainId => (second.view domainId).trans (first.view domainId)

/-- A change of a policy that is not an operator's. -/
structure KeepsSettings (change : PolicyRow → PolicyRow) : Prop where
  domainId : ∀ policy, (change policy).domainId = policy.domainId
  same : ∀ policy, settings (change policy) = settings policy

theorem Unaudited.update {selected : PolicyRow → Bool} {change : PolicyRow → PolicyRow}
    (events : next.auditEvents = db.auditEvents) (rows : next.importRows = db.importRows)
    (policies : next.policies = updateWhere selected change db.policies)
    (keeps : KeepsSettings change) : Unaudited db next where
  events := events
  rows := rows
  view := by
    intro domainId
    rw [settingsOf, policyOf_updateWhere policies keeps.domainId, Option.map_map]
    apply congrFun
    apply congrArg
    funext policy
    show settings (if selected policy then change policy else policy) = settings policy
    split
    · exact keeps.same policy
    · rfl

theorem Unaudited.untouched (events : next.auditEvents = db.auditEvents)
    (rows : next.importRows = db.importRows) (policies : next.policies = db.policies) :
    Unaudited db next where
  events := events
  rows := rows
  view := by
    intro domainId
    rw [settingsOf, Database.policyOf, policies]
    rfl

theorem Unaudited.accounts (unaudited : Unaudited db next) : auditLog.Accounts [] [] db next where
  log := by
    rw [List.append_nil]
    exact unaudited.events
  labels := rfl
  named := fun domainId changed => absurd (unaudited.view domainId) changed
  kept := by
    intro event domainId about
    show IsAbout next event domainId
    rw [IsAbout, unaudited.rows]
    exact about

/-- The end of every request that is audited. -/
theorem audit_accounts (success : mid.audit event = some next)
    (unchanged : db.auditEvents = mid.auditEvents)
    (rows : ∃ added, mid.importRows = db.importRows ++ added)
    (about : ∀ domainId, settingsOf mid domainId ≠ settingsOf db domainId →
      IsAbout mid event domainId) :
    auditLog.Accounts [(event.actorSubject, event.action)] [event] db next := by
  rw [audit_eq_some success]
  constructor
  · show mid.auditEvents ++ [event] = db.auditEvents ++ [event]
    rw [unchanged]
  · rfl
  · exact fun domainId changed => ⟨event, List.mem_singleton_self _, about domainId changed⟩
  · intro earlier domainId
    obtain ⟨added, grown⟩ := rows
    rintro (direct | ⟨action, row, member, accepted⟩)
    · exact Or.inl direct
    · refine Or.inr ⟨action, row, ?_, accepted⟩
      show row ∈ mid.importRows
      rw [grown]
      exact List.mem_append_left _ member

/-- A request that only moves crawls, and is audited. -/
theorem Unaudited.audit (unaudited : Unaudited db mid) (success : mid.audit event = some next) :
    auditLog.Accounts [(event.actorSubject, event.action)] [event] db next :=
  audit_accounts success unaudited.events.symm ⟨[], by rw [unaudited.rows, List.append_nil]⟩
    fun domainId changed => absurd (unaudited.view domainId) changed

end Statements

section Crawls

variable {db mid next : Database} {attempt : AttemptRow}

theorem reserveDue_unaudited {now : Time} {limit : Nat} {fresh : Uuid → FreshJob}
    {jobs : List CrawlJobV1} (success : reserveDue db now limit fresh = .ok (next, jobs)) :
    Unaudited db next := by
  refine reserveDue_invariant (P := Unaudited db) ?_ success (Unaudited.refl db)
  intro before after domainId job reserved soFar
  obtain ⟨_, _, rfl⟩ := reserveDomain_eq_ok reserved
  exact soFar.trans (Unaudited.update rfl rfl rfl ⟨fun _ => rfl, fun _ => rfl⟩)

theorem recordFailed_unaudited {failure : CrawlFailure} {now : Time}
    {settings : SchedulerSettings} {fresh : FreshJob}
    (success : recordFailed db attempt failure now settings fresh = .ok next) :
    Unaudited db next := by
  obtain ⟨_, ⟨retryAt, _, _, _, rfl⟩ | ⟨_, rfl⟩⟩ := recordFailed_cases success
  · exact Unaudited.update rfl rfl rfl ⟨fun _ => rfl, fun _ => rfl⟩
  · exact Unaudited.update rfl rfl rfl ⟨fun _ => rfl, fun _ => rfl⟩

theorem recordAttemptOutcome_unaudited {jobId : Uuid} {outcome : CrawlAttemptOutcome} {now : Time}
    {settings : SchedulerSettings} {fresh : FreshJob}
    (success : recordAttemptOutcome db jobId outcome now settings fresh = .ok next) :
    Unaudited db next := by
  obtain ⟨attempt, _, _, ⟨_, rfl⟩ | ⟨_, ⟨rfl, bare⟩ | ⟨failure, rfl, failed⟩⟩⟩ :=
    recordAttemptOutcome_cases success
  · exact Unaudited.refl _
  · obtain ⟨_, rfl⟩ := recordSucceeded_eq_ok bare
    exact Unaudited.update rfl rfl rfl ⟨fun _ => rfl, fun _ => rfl⟩
  · exact recordFailed_unaudited failed

theorem recordSuccess_unaudited {job : CrawlJobV1} {record : SuccessfulCrawlRecord}
    {fresh : FreshSnapshot} (success : recordSuccess db job record fresh = .ok next) :
    Unaudited db next := by
  obtain ⟨attempt, _, _, ⟨_, rfl⟩ | persisted⟩ := recordSuccess_cases success
  · exact Unaudited.refl _
  · obtain ⟨_, _, _, _, _, _, rfl⟩ := persistSuccess_eq_ok persisted
    exact Unaudited.update rfl rfl rfl ⟨fun _ => rfl, fun _ => rfl⟩

theorem claimAttempt_unaudited {crate : UrlCrate} {job : CrawlJobV1} {startedAt : Time}
    {claimed : ClaimedCrawlAttempt}
    (success : claimAttempt crate db job startedAt = .ok (next, claimed)) : Unaudited db next := by
  obtain ⟨attempt, _, _, ⟨_, _, rfl⟩ | ⟨_, _, _, updated⟩⟩ := claimAttempt_cases success
  · exact Unaudited.refl _
  · obtain ⟨_, rfl⟩ := updateAttempt_eq_some.mp updated
    exact Unaudited.untouched rfl rfl rfl

theorem markPublished_unaudited {jobId : Uuid} {now : Time}
    (success : markPublished db jobId now = .ok next) : Unaudited db next := by
  rw [markPublished_eq_ok success]
  exact Unaudited.untouched rfl rfl rfl

theorem recordPublishFailure_unaudited {jobId : Uuid} {now : Time} {settings : SchedulerSettings}
    (success : recordPublishFailure db jobId now settings = .ok next) : Unaudited db next := by
  rcases recordPublishFailure_cases success with rfl | ⟨row, _, _, _, ⟨_, rfl⟩ | ⟨_, _, rfl⟩⟩
  · exact Unaudited.refl _
  · exact Unaudited.untouched rfl rfl rfl
  · exact Unaudited.untouched rfl rfl rfl

theorem requestRefresh_unaudited {domain : CanonicalDomain} {requestedAt : Time}
    {cooldown : Duration} {request : PublicRefreshRequest}
    (success : requestRefresh db domain requestedAt cooldown = .ok (next, request)) :
    Unaudited db next := by
  obtain ⟨_, _, _, _, _, rfl⟩ := requestRefresh_eq_ok success
  exact Unaudited.update rfl rfl rfl ⟨fun _ => rfl, fun _ => rfl⟩

end Crawls

section Requests

variable {db mid next : Database} {actorSubject : Text} {action : String}

/-- A request that moves crawls and leaves its event. -/
def Requested (db next : Database) (actorSubject : Text) (action : String) : Prop :=
  ∃ mid event, Unaudited db mid ∧ mid.audit event = some next ∧
    event.actorSubject = actorSubject ∧ event.action = action

theorem Requested.accounts (requested : Requested db next actorSubject action) :
    ∃ entries, auditLog.Accounts [(actorSubject, action)] entries db next := by
  obtain ⟨mid, event, unaudited, success, rfl, rfl⟩ := requested
  exact ⟨_, unaudited.audit success⟩

theorem Requested.rows (requested : Requested db next actorSubject action) :
    next.importRows = db.importRows := by
  obtain ⟨mid, event, unaudited, success, _, _⟩ := requested
  rw [audit_eq_some success]
  exact unaudited.rows

theorem requestDomainCrawl_requested {domain : CanonicalDomain} {now : Time}
    (success : requestDomainCrawl db domain actorSubject now = .ok next) :
    Requested db next actorSubject "domain.crawl_requested" := by
  simp only [requestDomainCrawl, bind_eq_ok, orError_eq_ok, require_eq_ok, Database.updatePolicy,
    updatePolicies_eq_some] at success
  obtain ⟨policy, _, _, _, mid, ⟨_, rfl⟩, audited⟩ := success
  refine ⟨_, _, ?_, audited, rfl, rfl⟩
  exact Unaudited.update rfl rfl rfl ⟨fun _ => rfl, fun _ => rfl⟩

theorem scheduleCountryEnrichmentRecrawl_requested {now : Time} {count : Nat}
    (success : scheduleCountryEnrichmentRecrawl db actorSubject now = .ok (next, count)) :
    Requested db next actorSubject "country_enrichment.recrawl_requested" := by
  simp only [scheduleCountryEnrichmentRecrawl, bind_eq_ok, orError_eq_ok,
    updatePolicies_eq_some] at success
  obtain ⟨mid, ⟨_, rfl⟩, last, audited, same⟩ := success
  cases same
  refine ⟨_, _, ?_, audited, rfl, rfl⟩
  exact Unaudited.update rfl rfl rfl ⟨fun _ => rfl, fun _ => rfl⟩

theorem scheduleImportBatchRecrawl_requested {importId : Uuid} {now : Time}
    {counts : AdminImportBatchRecrawl}
    (success : scheduleImportBatchRecrawl db importId actorSubject now = .ok (next, counts)) :
    Requested db next actorSubject "import.recrawl_requested" := by
  simp only [scheduleImportBatchRecrawl, bind_eq_ok, orError_eq_ok, require_eq_ok,
    updatePolicies_eq_some] at success
  obtain ⟨_, _, mid, ⟨_, rfl⟩, _, _, last, audited, same⟩ := success
  cases same
  refine ⟨_, _, ?_, audited, rfl, rfl⟩
  exact Unaudited.update rfl rfl rfl ⟨fun _ => rfl, fun _ => rfl⟩

theorem retryTerminalAttempt_requested {jobId : Uuid} {now : Time} {fresh : FreshJob}
    (success : retryTerminalAttempt db jobId actorSubject now fresh = .ok next) :
    Requested db next actorSubject "crawl_attempt.retry_requested" := by
  simp only [retryTerminalAttempt, bind_eq_ok, orError_eq_ok, require_eq_ok,
    Database.updatePolicy, insertAttemptAndOutbox_eq_some, updatePolicies_eq_some] at success
  obtain ⟨⟨attempt, policy⟩, _, _, _, _, _, _, ⟨_, _, rfl⟩, _, ⟨_, rfl⟩, audited⟩ := success
  refine ⟨_, _, ?_, audited, rfl, rfl⟩
  exact Unaudited.update rfl rfl rfl ⟨fun _ => rfl, fun _ => rfl⟩

/-- The event names the domain whose settings are replaced. -/
theorem updatePolicy_accounts {domain : CanonicalDomain} {policy : AdminCrawlPolicy} {now : Time}
    (success : updatePolicy db domain policy actorSubject now = .ok next) :
    ∃ entries, auditLog.Accounts [(actorSubject, "domain.policy_updated")] entries db next := by
  simp only [updatePolicy, bind_eq_ok, orError_eq_ok, Database.updatePolicy,
    updatePolicies_eq_some] at success
  obtain ⟨row, _, mid, ⟨_, rfl⟩, audited⟩ := success
  refine ⟨_, @audit_accounts db _ next _ audited rfl ⟨[], (List.append_nil _).symm⟩ ?_⟩
  intro domainId changed
  refine Or.inl ⟨Or.inr rfl, ?_⟩
  by_contra other
  apply changed
  refine congrArg (Option.map settings) (@policyOf_updateWhere_other db _ _
    (PolicyRow.updatedWith policy now) rfl (fun _ => rfl) domainId ?_)
  rintro held _ rfl
  rw [beq_eq_false_iff_ne]
  exact fun same => other same.symm

end Requests

section Registration

variable {crate : UrlCrate} {policy : CrawlPolicy} {now : Time} {importId sourceId : Uuid}
  {db mid next : Database} {row : ImportRow} {rows : List ImportRow}

/-- New policies are read for new domains only. -/
theorem settingsOf_append {added : List PolicyRow} {domainId : Uuid}
    (policies : next.policies = db.policies ++ added)
    (changed : settingsOf next domainId ≠ settingsOf db domainId) :
    ∃ policy ∈ added, policy.domainId = domainId := by
  by_contra absent
  apply changed
  have none : added.find? (fun policy => policy.domainId == domainId) = none := by
    rw [List.find?_eq_none]
    intro policy member same
    exact absent ⟨policy, member, beq_iff_eq.mp same⟩
  rw [settingsOf, Database.policyOf, policies, List.find?_append, none, Option.or_none]
  rfl

theorem createWithAudit_accounts {id : Uuid} {domain : CanonicalDomain} {actorSubject : Text}
    {created : Domain}
    (success : createWithAudit crate db id domain policy actorSubject now =
      .ok (next, created)) :
    ∃ entries, auditLog.Accounts [(actorSubject, "domain.created")] entries db next := by
  simp only [createWithAudit, insertDomain, bind_eq_ok, orError_eq_ok, require_eq_ok] at success
  obtain ⟨⟨mid, inserted⟩, ⟨_, _, stored, insertion, parsed⟩, last, audited, same⟩ := success
  cases same
  obtain ⟨_, _, _, rfl⟩ := insertDomainRows_eq_some insertion
  split at parsed
  · cases parsed
  · cases parsed
    refine ⟨_, @audit_accounts db _ next _ audited rfl ⟨[], (List.append_nil _).symm⟩ ?_⟩
    intro domainId changed
    obtain ⟨added, member, same⟩ := settingsOf_append rfl changed
    rw [List.mem_singleton.mp member] at same
    exact Or.inl ⟨Or.inl rfl, same⟩

theorem importDomain_events {id domainId : Uuid} {domain : CanonicalDomain}
    {status : CsvImportRowStatus}
    (success : importDomain db sourceId id domain policy now = some (mid, domainId, status)) :
    mid.auditEvents = db.auditEvents := by
  obtain ⟨⟨stored, inserted⟩, insertion, success⟩ := Option.bind_eq_some_iff.mp success
  obtain ⟨⟨found, result⟩, lookup, success⟩ := Option.bind_eq_some_iff.mp success
  cases success
  have joined : (upsertSourceMembership stored domainId sourceId).auditEvents =
      stored.auditEvents := by
    unfold upsertSourceMembership
    split <;> rfl
  rw [joined]
  unfold insertDomainIfAbsent at insertion
  split at insertion
  · cases insertion
    rfl
  · obtain ⟨rows, both, same⟩ := Option.map_eq_some_iff.mp insertion
    cases same
    obtain ⟨_, _, _, rfl⟩ := insertDomainRows_eq_some both
    rfl

theorem processRow_events {id : Uuid} {input : CsvImportRowInput}
    (success : processRow crate policy now importId sourceId id db input = some (next, row)) :
    next.auditEvents = db.auditEvents := by
  unfold processRow at success
  split at success
  · obtain ⟨stored, insertion, success⟩ := Option.bind_eq_some_iff.mp success
    cases success
    obtain ⟨_, rfl⟩ := insertRow_eq_some insertion
    rfl
  · obtain ⟨⟨stored, domainId, status⟩, imported, success⟩ := Option.bind_eq_some_iff.mp success
    obtain ⟨written, insertion, success⟩ := Option.bind_eq_some_iff.mp success
    cases success
    obtain ⟨_, rfl⟩ := insertRow_eq_some insertion
    have kept := importDomain_events imported
    exact kept

theorem processRows_stored {fresh : Nat → Uuid} {n : Nat} {inputs : List CsvImportRowInput}
    (success : processRows crate policy now importId sourceId fresh db n inputs =
      some (next, rows)) :
    next.importRows = db.importRows ++ rows ∧ next.auditEvents = db.auditEvents := by
  induction inputs generalizing db n rows with
  | nil =>
      cases success
      exact ⟨(List.append_nil _).symm, rfl⟩
  | cons input rest ih =>
      obtain ⟨⟨mid, row⟩, first, success⟩ := Option.bind_eq_some_iff.mp success
      obtain ⟨⟨last, others⟩, remaining, success⟩ := Option.bind_eq_some_iff.mp success
      cases success
      obtain ⟨stored, events⟩ := ih remaining
      constructor
      · rw [stored, (processRow_spec first).stored, List.append_assoc, List.singleton_append]
      · rw [events, processRow_events first]

/-- A new policy of an import belongs to one of its accepted rows. -/
theorem importCsv_accounts {command : CsvImportCommand} {fresh : FreshImport}
    (success : importCsv crate db command policy fresh now = some (next, rows)) :
    ∃ entries, auditLog.Accounts [(command.initiatedBy, "import.created")] entries db next := by
  obtain ⟨⟨first, sourceId⟩, sourced, success⟩ := Option.bind_eq_some_iff.mp success
  obtain ⟨second, created, success⟩ := Option.bind_eq_some_iff.mp success
  obtain ⟨⟨third, found⟩, processed, success⟩ := Option.bind_eq_some_iff.mp success
  obtain ⟨fourth, completion, success⟩ := Option.bind_eq_some_iff.mp success
  obtain ⟨last, audit, success⟩ := Option.bind_eq_some_iff.mp success
  cases success
  have source : first.policies = db.policies ∧ first.importRows = db.importRows ∧
      first.auditEvents = db.auditEvents := by
    unfold findOrCreateSource at sourced
    split at sourced
    · cases sourced
      exact ⟨rfl, rfl, rfl⟩
    · obtain ⟨sources, _, same⟩ := Option.map_eq_some_iff.mp sourced
      cases same
      exact ⟨rfl, rfl, rfl⟩
  obtain ⟨_, _, rfl⟩ := Option.map_eq_some_iff.mp created
  have stored := processRows_stored processed
  have registered := processRows_spec processed
  have finished : fourth.policies = third.policies ∧ fourth.importRows = third.importRows ∧
      fourth.auditEvents = third.auditEvents := by
    unfold completeImport at completion
    split at completion
    · cases completion
    · cases completion
      exact ⟨rfl, rfl, rfl⟩
  have policies := registered.policies
  have importRows := stored.1
  dsimp only at policies importRows
  rw [source.1] at policies
  rw [source.2.1] at importRows
  refine ⟨_, audit_accounts audit ?_ ⟨rows, ?_⟩ ?_⟩
  · rw [finished.2.2, stored.2]
    exact source.2.2.symm
  · rw [finished.2.1, importRows]
  · intro domainId changed
    obtain ⟨added, member, same⟩ := settingsOf_append (finished.1.trans policies) changed
    obtain ⟨domain, accepted, rfl⟩ := List.mem_map.mp member
    obtain ⟨row, inRows, inserted⟩ := List.mem_filterMap.mp accepted
    refine Or.inr ⟨rfl, row, ?_, registered.batch row inRows,
      (registered.inserted row inRows).mpr ⟨domain, inserted⟩, ?_⟩
    · rw [finished.2.1, importRows]
      exact List.mem_append_right _ inRows
    · have named : domain.id = domainId := same
      rw [(acceptedDomain_eq_some inserted).2.1, named]

end Registration

section Runs

variable {crate : UrlCrate}

theorem exec_accounts (crate : UrlCrate) (db : Database) (call : Store.Call) :
    ∃ entries, auditLog.Accounts (owedEvents crate db call) entries db (exec crate db call) := by
  unfold exec owedEvents
  cases committed : transact crate db call with
  | none => exact ⟨[], Ledger.Accounts.refl db⟩
  | some next =>
      rw [Option.isSome_some, if_pos rfl, Option.getD_some]
      cases call <;>
        simp only [transact, toOption_eq_some, map_eq_ok, Option.map_eq_some_iff, Prod.exists,
          exists_and_right, exists_eq_right] at committed
      case createWithAudit => exact createWithAudit_accounts committed.choose_spec
      case importCsv => exact importCsv_accounts committed.choose_spec
      case reserveDue => exact ⟨[], (reserveDue_unaudited committed.choose_spec).accounts⟩
      case markPublished => exact ⟨[], (markPublished_unaudited committed).accounts⟩
      case recordPublishFailure => exact ⟨[], (recordPublishFailure_unaudited committed).accounts⟩
      case claimAttempt => exact ⟨[], (claimAttempt_unaudited committed.choose_spec).accounts⟩
      case recordSuccess => exact ⟨[], (recordSuccess_unaudited committed).accounts⟩
      case recordFailure =>
        exact ⟨[], (recordAttemptOutcome_unaudited (mapError_eq_ok.mp committed)).accounts⟩
      case recordAttemptOutcome =>
        exact ⟨[], (recordAttemptOutcome_unaudited committed).accounts⟩
      case retryTerminalAttempt => exact (retryTerminalAttempt_requested committed).accounts
      case requestDomainCrawl => exact (requestDomainCrawl_requested committed).accounts
      case requestRefresh => exact ⟨[], (requestRefresh_unaudited committed.choose_spec).accounts⟩
      case scheduleCountryEnrichmentRecrawl =>
        exact (scheduleCountryEnrichmentRecrawl_requested committed.choose_spec).accounts
      case scheduleImportBatchRecrawl =>
        exact (scheduleImportBatchRecrawl_requested committed.choose_spec).accounts
      case updatePolicy => exact updatePolicy_accounts committed

/-- Between any two moments of any run the log grows by exactly one event for each
request that commits, with its actor and in their order, and a domain whose settings
differ, or that was registered, has one of these events. -/
theorem administration_audited (crate : UrlCrate) (catalogue : Catalogue)
    (before after : List Store.Call) :
    let old := reached crate catalogue before
    let new := reached crate catalogue (before ++ after)
    ∃ events, new.auditEvents = old.auditEvents ++ events ∧
      (events.map fun event => (event.actorSubject, event.action)) =
        owed (exec crate) (owedEvents crate) old after ∧
      ∀ domainId, settingsOf new domainId ≠ settingsOf old domainId →
        ∃ event ∈ events, IsAbout new event domainId := by
  intro old new
  obtain ⟨events, accounts⟩ := Ledger.run_accounts (exec_accounts crate) old after
  have same : run (exec crate) old after = new :=
    (run_append (exec crate) (Database.initial catalogue) before after).symm
  rw [same] at accounts
  exact ⟨events, accounts.log, accounts.labels, accounts.named⟩

end Runs

end TechAtlas.Admin
