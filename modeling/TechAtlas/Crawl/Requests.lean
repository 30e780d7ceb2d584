import TechAtlas.Store.Keys

set_option autoImplicit false

/- Accepted crawl requests. A request only writes the time the domain is due at.
Reservations, outcomes and later requests write the same column: the request is lost
where one of them postpones the domain before a worker claims a crawl of it, unless
that writer queues a crawl. -/
namespace TechAtlas.Crawl

open Library Store

variable {crate : UrlCrate} {domainId : Uuid} {db next : Database} {call : Call}

section Definitions

/-- Requests, reservations, claims and outcomes. -/
def isCrawlStep : Call → Bool
  | .requestDomainCrawl .. | .requestRefresh .. | .reserveDue .. | .claimAttempt ..
  | .recordSuccess .. | .recordFailure .. | .recordAttemptOutcome .. => true
  | _ => false

/-- The time an accepted request makes the domain due at. -/
def acceptedAt (domainId : Uuid) (db : Database) : Call → Option Time
  | .requestDomainCrawl domain actorSubject now =>
      (db.activePolicy domain).bind fun policy =>
        if policy.domainId == domainId && (requestDomainCrawl db domain actorSubject now).isOk then
          some now
        else none
  | .requestRefresh domain requestedAt cooldown =>
      (db.activePolicy domain).bind fun policy =>
        if policy.domainId == domainId && (requestRefresh db domain requestedAt cooldown).isOk then
          some (max requestedAt policy.createdAt)
        else none
  | _ => none

/-- A worker claims an attempt of the domain. -/
def claims (crate : UrlCrate) (domainId : Uuid) (db : Database) : Call → Bool
  | .claimAttempt job startedAt =>
      match claimAttempt crate db job startedAt with
      | .ok (_, .ready _) => job.domainId == domainId
      | _ => false
  | _ => false

/-- The call records the outcome of an attempt of the domain. -/
def resolves (crate : UrlCrate) (domainId : Uuid) (db : Database) (call : Call) : Bool :=
  db.attempts.any fun attempt => attempt.domainId == domainId && !attempt.status.isTerminal &&
    (exec crate db call).attempts.any fun later =>
      later.id == attempt.id && later.status.isTerminal

/-- The due time of the latest request accepted along the run, if any, else the
given one. -/
def latestRequest (crate : UrlCrate) (domainId : Uuid) : Database → Time → List Call → Time
  | _, due, [] => due
  | db, due, call :: rest =>
      latestRequest crate domainId (exec crate db call) ((acceptedAt domainId db call).getD due) rest

def claimedIn (crate : UrlCrate) (domainId : Uuid) : Database → List Call → Bool
  | _, [] => false
  | db, call :: rest =>
      claims crate domainId db call || claimedIn crate domainId (exec crate db call) rest

/-- An outcome is recorded for a crawl of the domain before any worker has claimed one. -/
def resolvesEarlierClaim (crate : UrlCrate) (domainId : Uuid) : Database → List Call → Bool
  | _, [] => false
  | db, call :: rest =>
      !claims crate domainId db call && (resolves crate domainId db call ||
        resolvesEarlierClaim crate domainId (exec crate db call) rest)

/-- The domain is due at the time, or a crawl of it is queued. -/
def Outstanding (domainId : Uuid) (due : Time) (db : Database) : Prop :=
  (∃ policy ∈ db.policies, policy.domainId = domainId ∧ policy.nextCrawlAt = some due) ∨
    ∃ attempt ∈ db.attempts, attempt.domainId = domainId ∧ attempt.status = .queued

/-- `next_crawl_at` as the outcome of an unresolved attempt writes it. -/
def outcomeDue (policy : PolicyRow) (attempt : AttemptRow) (now : Time)
    (settings : SchedulerSettings) : CrawlAttemptOutcome → Option Time
  | .succeeded => some (now + policy.desiredInterval)
  | .failed _ =>
      if attempt.attemptNumber ≤ settings.maxCrawlRetries.toNat then
        (settings.crawlRetryDelay (UInt8.ofNat attempt.attemptNumber)).bind (checkedAdd now)
      else some (now + policy.desiredInterval)

/-- The same for the attempt that a report selects, when it is one of the domain. -/
def reportDue (domainId : Uuid) (db : Database) (selected : AttemptRow → Bool)
    (due : PolicyRow → AttemptRow → Option Time) : Option Time :=
  (db.attemptWithPolicy selected).bind fun (attempt, policy) =>
    if attempt.domainId = domainId ∧ attempt.status.isTerminal = false then due policy attempt
    else none

/-- `next_crawl_at` as the call writes it to the domain's policy, when it commits and
writes it at all. -/
def rescheduledTo (domainId : Uuid) (db : Database) : Call → Option Time
  | .reserveDue now limit _ =>
      if domainId ∈ dueDomains db now limit then
        (db.policyOf domainId).map fun policy => now + policy.desiredInterval
      else none
  | .recordSuccess job record _ =>
      reportDue domainId db (AttemptRow.matchesJob job) fun policy _ =>
        some (record.snapshot.capturedAt + policy.desiredInterval)
  | .recordFailure job failure finishedAt settings _ =>
      reportDue domainId db (fun attempt => attempt.jobId == job.jobId) fun policy attempt =>
        outcomeDue policy attempt finishedAt settings (.failed failure)
  | .recordAttemptOutcome jobId outcome now settings _ =>
      reportDue domainId db (fun attempt => attempt.jobId == jobId) fun policy attempt =>
        outcomeDue policy attempt now settings outcome
  | call => acceptedAt domainId db call

/-- The call commits, and makes the domain due only after the time. -/
def postpones (crate : UrlCrate) (domainId : Uuid) (due : Time) (db : Database) (call : Call) :
    Bool :=
  (transact crate db call).isSome &&
    (rescheduledTo domainId db call).any fun next => decide (due < next)

/-- The domain is due by the time. -/
def DueBy (domainId : Uuid) (due : Time) (db : Database) : Prop :=
  ∃ policy ∈ db.policies, policy.domainId = domainId ∧
    policy.nextCrawlAt.any (fun next => decide (next ≤ due)) = true

instance (domainId : Uuid) (due : Time) (db : Database) : Decidable (DueBy domainId due db) :=
  inferInstanceAs (Decidable (∃ policy ∈ db.policies, policy.domainId = domainId ∧
    policy.nextCrawlAt.any (fun next => decide (next ≤ due)) = true))

/-- Until a worker claims a crawl of the domain, nothing postpones it past the time. -/
def Unpostponed (crate : UrlCrate) (domainId : Uuid) (due : Time) : Database → List Call → Prop
  | _, [] => True
  | db, call :: rest =>
      claims crate domainId db call = true ∨ postpones crate domainId due db call = false ∧
        Unpostponed crate domainId due (exec crate db call) rest

end Definitions

section Steps

variable {due : Time}

/-- A step that touches neither the domain's policy nor its queued attempts. -/
theorem Outstanding.keep (outstanding : Outstanding domainId due db)
    (policies : ∀ policy ∈ db.policies, policy.domainId = domainId → policy ∈ next.policies)
    (attempts : ∀ attempt ∈ db.attempts, attempt.domainId = domainId → attempt.status = .queued →
      attempt ∈ next.attempts) : Outstanding domainId due next := by
  rcases outstanding with ⟨policy, member, same, scheduled⟩ | ⟨attempt, member, same, queued⟩
  · exact Or.inl ⟨policy, policies policy member same, same, scheduled⟩
  · exact Or.inr ⟨attempt, attempts attempt member same queued, same, queued⟩

theorem mem_updateWhere_other {other : Uuid} {change : PolicyRow → PolicyRow}
    (different : other ≠ domainId) {policy : PolicyRow} (member : policy ∈ db.policies)
    (same : policy.domainId = domainId) :
    policy ∈ updateWhere (fun policy => policy.domainId == other) change db.policies := by
  apply mem_updateWhere_of_not member
  rw [beq_eq_false_iff_ne, same]
  exact different.symm

/-- The attempts of the domain are left alone when another domain's attempt changes. -/
theorem mem_updateAttempt_other (keys : Keys db) {attempt : AttemptRow}
    {change : AttemptRow → AttemptRow} (member : attempt ∈ db.attempts)
    (different : attempt.domainId ≠ domainId) {row : AttemptRow} (inTable : row ∈ db.attempts)
    (same : row.domainId = domainId) :
    row ∈ updateWhere (fun row => row.id == attempt.id) change db.attempts := by
  apply mem_updateWhere_of_not inTable
  rw [beq_eq_false_iff_ne]
  intro sameId
  have equal := keys.attempt_eq inTable member sameId
  rw [equal] at same
  exact different same

theorem reserveDomain_outstanding {now : Time} {fresh : FreshJob} {reserved : Uuid}
    {job : CrawlJobV1} (success : reserveDomain db now fresh reserved = .ok (next, job))
    (outstanding : Outstanding domainId due db) : Outstanding domainId due next := by
  obtain ⟨_, _, rfl⟩ := reserveDomain_eq_ok success
  by_cases same : reserved = domainId
  · refine Or.inr ⟨_, List.mem_append_right _ (List.mem_singleton.mpr rfl), ?_, rfl⟩
    exact same
  · refine outstanding.keep ?_ ?_
    · intro policy member sameDomain
      exact mem_updateWhere_other same member sameDomain
    · intro attempt member _ _
      exact List.mem_append_left _ member

theorem claimAttempt_outstanding (keys : Keys db) {job : CrawlJobV1} {startedAt : Time}
    {claimed : ClaimedCrawlAttempt}
    (success : claimAttempt crate db job startedAt = .ok (next, claimed))
    (unclaimed : claims crate domainId db (.claimAttempt job startedAt) = false)
    (outstanding : Outstanding domainId due db) : Outstanding domainId due next := by
  obtain ⟨attempt, member, selected, ⟨_, _, rfl⟩ | ⟨_, name, rfl, updated⟩⟩ :=
    claimAttempt_cases success
  · exact outstanding
  · obtain ⟨_, rfl⟩ := updateAttempt_eq_some.mp updated
    have different : attempt.domainId ≠ domainId := by
      rw [matchesJob_domainId selected]
      simpa [claims, success] using unclaimed
    refine outstanding.keep (fun _ inPolicies _ => inPolicies) ?_
    intro row inTable same _
    exact mem_updateAttempt_other keys member different inTable same

theorem resolution_outstanding (keys : Keys db) {records : SuccessfulCrawlRecord → Prop} {bare : Bool}
    (resolution : Resolution records db bare next)
    (unresolved : ∀ attempt ∈ db.attempts, attempt.domainId = domainId →
      attempt.status.isTerminal = false → ∀ later ∈ next.attempts, later.id = attempt.id →
      later.status.isTerminal = false)
    (outstanding : Outstanding domainId due db) : Outstanding domainId due next := by
  obtain ⟨attempt, member, change, added, policyChange, active, sameId, _, terminal, _, attempts,
    policies⟩ := resolution_rows resolution
  have different : attempt.domainId ≠ domainId := by
    intro same
    have ended : change attempt ∈ next.attempts := by
      rw [attempts]
      exact List.mem_append_left _ (mem_updateWhere_of_selected member (beq_self_eq_true _))
    have stillOpen := unresolved attempt member same (active attempt member rfl) _ ended sameId
    rw [terminal] at stillOpen
    cases stillOpen
  refine outstanding.keep ?_ ?_
  · intro policy inPolicies same
    rw [policies]
    exact mem_updateWhere_other different inPolicies same
  · intro row inTable same _
    rw [attempts]
    exact List.mem_append_left _ (mem_updateAttempt_other keys member different inTable same)

theorem not_resolves (quiet : resolves crate domainId db call = false) :
    ∀ attempt ∈ db.attempts, attempt.domainId = domainId → attempt.status.isTerminal = false →
      ∀ later ∈ (exec crate db call).attempts, later.id = attempt.id →
        later.status.isTerminal = false := by
  intro attempt member same active later inNext sameId
  rw [resolves, List.any_eq_false] at quiet
  have untouched := quiet attempt member
  simp only [same, active, beq_self_eq_true, Bool.not_false, Bool.and_true, Bool.true_and,
    Bool.not_eq_true, List.any_eq_false] at untouched
  have entry := untouched later inNext
  rw [sameId] at entry
  simpa using entry

theorem outcome_outstanding (keys : Keys db)
    (outcome : exec crate db call = db ∨
      ∃ records bare, Resolution records db bare (exec crate db call))
    (quiet : resolves crate domainId db call = false)
    (outstanding : Outstanding domainId due db) :
    Outstanding domainId due (exec crate db call) := by
  rcases outcome with same | ⟨records, bare, resolution⟩
  · rw [same]
    exact outstanding
  · exact resolution_outstanding keys resolution (not_resolves quiet) outstanding

/-- An accepted request schedules its own domain and leaves the others alone. -/
theorem schedule_outstanding {policy : PolicyRow} {change : PolicyRow → PolicyRow}
    {accepted : Option Time} (member : policy ∈ db.policies)
    (attempts : next.attempts = db.attempts)
    (policies : next.policies =
      updateWhere (fun row => row.domainId == policy.domainId) change db.policies)
    (keepsDomain : (change policy).domainId = policy.domainId)
    (here : policy.domainId = domainId → accepted = (change policy).nextCrawlAt ∧
      accepted.isSome = true)
    (elsewhere : policy.domainId ≠ domainId → accepted = none)
    (outstanding : accepted = none → Outstanding domainId due db) :
    Outstanding domainId (accepted.getD due) next := by
  by_cases same : policy.domainId = domainId
  · obtain ⟨scheduled, present⟩ := here same
    obtain ⟨time, rfl⟩ := Option.isSome_iff_exists.mp present
    refine Or.inl ⟨change policy, ?_, keepsDomain.trans same, scheduled.symm⟩
    rw [policies]
    exact mem_updateWhere_of_selected member (beq_self_eq_true _)
  · have before := outstanding (elsewhere same)
    rw [elsewhere same]
    refine before.keep ?_ (fun attempt inTable _ _ => attempts ▸ inTable)
    intro row inPolicies sameDomain
    rw [policies]
    exact mem_updateWhere_other same inPolicies sameDomain

theorem activePolicy_mem {domain : CanonicalDomain} {policy : PolicyRow}
    (found : db.activePolicy domain = some policy) : policy ∈ db.policies := by
  obtain ⟨row, _, joined⟩ := Option.bind_eq_some_iff.mp found
  exact (policyOf_eq_some joined).1

theorem requestDomainCrawl_outstanding {domain : CanonicalDomain} {actorSubject : Text} {now : Time}
    (success : requestDomainCrawl db domain actorSubject now = .ok next)
    (outstanding : acceptedAt domainId db (.requestDomainCrawl domain actorSubject now) = none →
      Outstanding domainId due db) :
    Outstanding domainId ((acceptedAt domainId db
      (.requestDomainCrawl domain actorSubject now)).getD due) next := by
  have accepted := success
  simp only [requestDomainCrawl, bind_eq_ok, orError_eq_ok, Database.updatePolicy,
    updatePolicies_eq_some] at success
  obtain ⟨policy, found, _, _, mid, ⟨_, rfl⟩, audited⟩ := success
  have same := (audit_undisturbed audited).crawl
  refine schedule_outstanding (activePolicy_mem found) same.attempts same.policies rfl ?_ ?_
    outstanding
  · intro sameDomain
    simp [acceptedAt, found, sameDomain, accepted, Except.isOk, Except.toBool,
      PolicyRow.scheduledAt]
  · intro different
    simp [acceptedAt, found, different]

theorem requestRefresh_outstanding {domain : CanonicalDomain} {requestedAt : Time}
    {cooldown : Duration} {request : PublicRefreshRequest}
    (success : requestRefresh db domain requestedAt cooldown = .ok (next, request))
    (outstanding : acceptedAt domainId db (.requestRefresh domain requestedAt cooldown) = none →
      Outstanding domainId due db) :
    Outstanding domainId ((acceptedAt domainId db
      (.requestRefresh domain requestedAt cooldown)).getD due) next := by
  have accepted := success
  simp only [requestRefresh, bind_eq_ok, orError_eq_ok, Database.updatePolicy,
    updatePolicies_eq_some] at success
  obtain ⟨_, _, policy, found, _, _, _, _, _, ⟨_, rfl⟩, same⟩ := success
  cases same
  refine schedule_outstanding (activePolicy_mem found) rfl rfl rfl ?_ ?_ outstanding
  · intro sameDomain
    simp [acceptedAt, found, sameDomain, accepted, Except.isOk, Except.toBool,
      PolicyRow.refreshedAt]
  · intro different
    simp [acceptedAt, found, different]

/-- A rejected request is not accepted. -/
theorem acceptedAt_of_rejected (rejected : transact crate db call = none) :
    acceptedAt domainId db call = none := by
  cases call <;> try rfl
  case requestDomainCrawl domain actorSubject now =>
    cases result : requestDomainCrawl db domain actorSubject now with
    | ok next => simp [transact, result, Except.toOption] at rejected
    | error reason => simp [acceptedAt, result, Except.isOk, Except.toBool]
  case requestRefresh domain requestedAt cooldown =>
    cases result : requestRefresh db domain requestedAt cooldown with
    | ok next => simp [transact, result, Except.map, Except.toOption] at rejected
    | error reason => simp [acceptedAt, result, Except.isOk, Except.toBool]

/-- One step: a request moves the due time, a reservation queues a crawl, and a
queued crawl stays until it is claimed. -/
theorem exec_outstanding (keys : Keys db) (step : isCrawlStep call = true)
    (unclaimed : claims crate domainId db call = false)
    (quiet : resolves crate domainId db call = false)
    (outstanding : Outstanding domainId due db) :
    Outstanding domainId ((acceptedAt domainId db call).getD due) (exec crate db call) := by
  cases committed : transact crate db call with
  | none =>
      rw [acceptedAt_of_rejected committed, exec, committed]
      exact outstanding
  | some next =>
      have reached : exec crate db call = next := by simp [exec, committed]
      cases call <;> simp only [isCrawlStep, Bool.false_eq_true] at step <;>
        simp only [transact, toOption_eq_some, map_eq_ok, Prod.exists, exists_and_right,
          exists_eq_right] at committed
      case reserveDue now limit fresh =>
        rw [reached]
        obtain ⟨jobs, success⟩ := committed
        exact reserveDue_invariant (fun _ _ _ _ reserved => reserveDomain_outstanding reserved)
          success outstanding
      case claimAttempt job startedAt =>
        rw [reached]
        obtain ⟨claimed, success⟩ := committed
        exact claimAttempt_outstanding keys success unclaimed outstanding
      case recordSuccess job record fresh =>
        refine outcome_outstanding keys ?_ quiet outstanding
        rw [reached]
        exact recordSuccess_resolution committed
      case recordFailure job failure finishedAt settings fresh =>
        refine outcome_outstanding keys ?_ quiet outstanding
        rw [reached]
        exact recordAttemptOutcome_resolution (mapError_eq_ok.mp committed)
      case recordAttemptOutcome jobId outcome now settings fresh =>
        refine outcome_outstanding keys ?_ quiet outstanding
        rw [reached]
        exact recordAttemptOutcome_resolution committed
      case requestDomainCrawl domain actorSubject now =>
        rw [reached]
        exact requestDomainCrawl_outstanding committed fun _ => outstanding
      case requestRefresh domain requestedAt cooldown =>
        rw [reached]
        obtain ⟨request, success⟩ := committed
        exact requestRefresh_outstanding success fun _ => outstanding

end Steps

section Runs

/-- Until a worker claims a crawl, the request is outstanding. -/
theorem run_outstanding (keys : Keys db) {due : Time} (calls : List Call)
    (steps : ∀ call ∈ calls, isCrawlStep call = true)
    (quiet : resolvesEarlierClaim crate domainId db calls = false)
    (outstanding : Outstanding domainId due db) :
    Outstanding domainId (latestRequest crate domainId db due calls)
        (run (exec crate) db calls) ∨
      claimedIn crate domainId db calls = true := by
  induction calls generalizing db due with
  | nil => exact Or.inl outstanding
  | cons call rest ih =>
      simp only [resolvesEarlierClaim, Bool.and_eq_false_iff, Bool.not_eq_false',
        Bool.or_eq_false_iff] at quiet
      rw [claimedIn, Bool.or_eq_true]
      rcases quiet with claimed | ⟨unresolved, quietRest⟩
      · exact Or.inr (Or.inl claimed)
      · by_cases claimed : claims crate domainId db call = true
        · exact Or.inr (Or.inl claimed)
        · have next := exec_outstanding keys (steps call List.mem_cons_self)
            (by simpa using claimed) unresolved outstanding
          have later := ih (exec_keys crate db call keys)
            (fun other member => steps other (List.mem_cons_of_mem call member)) quietRest next
          rcases later with holds | claimedLater
          · exact Or.inl holds
          · exact Or.inr (Or.inr claimedLater)

theorem exec_accepted {request : Call} {due : Time}
    (accepted : acceptedAt domainId db request = some due) :
    Outstanding domainId due (exec crate db request) := by
  cases committed : transact crate db request with
  | none =>
      rw [acceptedAt_of_rejected committed] at accepted
      cases accepted
  | some next =>
      have reached : exec crate db request = next := by simp [exec, committed]
      rw [reached]
      have same : due = (acceptedAt domainId db request).getD due := by rw [accepted]; rfl
      rw [same]
      cases request <;> first | cases accepted | skip
      case requestDomainCrawl domain actorSubject now =>
        refine requestDomainCrawl_outstanding (toOption_eq_some.mp committed) ?_
        rw [accepted]
        simp
      case requestRefresh domain requestedAt cooldown =>
        simp only [transact, toOption_eq_some, map_eq_ok, Prod.exists, exists_and_right,
          exists_eq_right] at committed
        obtain ⟨request, success⟩ := committed
        refine requestRefresh_outstanding success ?_
        rw [accepted]
        simp

/-- A domain is created and an operator requests a crawl, which is reserved. -/
def requestedCrawl : List Call × Call × List Call :=
  let domain := exampleDomain
  ([.createWithAudit 1 domain DomainCreationDefaults.crawlPolicy "operator".toList 0],
    .requestDomainCrawl domain "operator".toList 5,
    [.reserveDue 6 10 fun _ => ⟨10, 11, 12⟩])

end Runs

section Postponement

variable {due : Time} {policy : PolicyRow}

theorem policyOf_mem (keys : Keys db) (member : policy ∈ db.policies) :
    db.policyOf policy.domainId = some policy :=
  (find?_key_eq_some keys.policyKeys).mpr ⟨member, rfl⟩

theorem dueBy_iff (keys : Keys db) (held : db.policyOf domainId = some policy) :
    DueBy domainId due db ↔
      policy.nextCrawlAt.any (fun next => decide (next ≤ due)) = true := by
  obtain ⟨member, own⟩ := policyOf_eq_some held
  constructor
  · rintro ⟨other, inPolicies, same, isDue⟩
    have equal := policyOf_mem keys inPolicies
    rw [same, held] at equal
    rw [Option.some.inj equal]
    exact isDue
  · exact fun isDue => ⟨policy, member, own, isDue⟩

/-- An update of one policy, seen from the policy of the domain. -/
theorem policyOf_change {other : Uuid} {change : PolicyRow → PolicyRow}
    (held : db.policyOf domainId = some policy)
    (policies : next.policies = updateWhere (fun row => row.domainId == other) change db.policies)
    (keeps : ∀ row, (change row).domainId = row.domainId) :
    next.policyOf domainId = some (if other = domainId then change policy else policy) := by
  have own := (policyOf_eq_some held).2
  rw [policyOf_updateWhere policies keeps, held, Option.map_some, own]
  by_cases same : other = domainId
  · rw [if_pos same, if_pos (beq_iff_eq.mpr same.symm)]
  · rw [if_neg same, if_neg fun equal => same (beq_iff_eq.mp equal).symm]

/-- What a call leaves of the domain's policy: `next_crawl_at` as the call writes it, or
as it was. -/
def Rescheduled (domainId : Uuid) (policy : PolicyRow) (time : Option Time) (next : Database) :
    Prop :=
  ∃ later, next.policyOf domainId = some later ∧ later.nextCrawlAt = time.or policy.nextCrawlAt

theorem Rescheduled.unchanged (held : db.policyOf domainId = some policy)
    (policies : next.policies = db.policies) : Rescheduled domainId policy none next := by
  refine ⟨policy, ?_, rfl⟩
  rw [Database.policyOf, policies]
  exact held

theorem Rescheduled.change {other : Uuid} {change : PolicyRow → PolicyRow} {time : Option Time}
    (held : db.policyOf domainId = some policy)
    (policies : next.policies = updateWhere (fun row => row.domainId == other) change db.policies)
    (keeps : ∀ row, (change row).domainId = row.domainId)
    (own : other = domainId → ∃ written, time = some written ∧
      (change policy).nextCrawlAt = some written)
    (elsewhere : other ≠ domainId → time = none) : Rescheduled domainId policy time next := by
  refine ⟨_, policyOf_change held policies keeps, ?_⟩
  by_cases same : other = domainId
  · obtain ⟨written, rfl, stored⟩ := own same
    rw [if_pos same, stored]
    rfl
  · rw [if_neg same, elsewhere same]
    rfl

/-- The loop of a reservation moves each of its domains once. -/
theorem reserveDomains_policyOf {now : Time} {fresh : Uuid → FreshJob} {domainIds : List Uuid}
    {jobs : List CrawlJobV1} (distinct : domainIds.Nodup)
    (held : db.policyOf domainId = some policy)
    (success : reserveDomains now fresh db domainIds = .ok (next, jobs)) :
    next.policyOf domainId =
      some (if domainId ∈ domainIds then policy.reservedAt now else policy) := by
  induction domainIds generalizing db jobs policy with
  | nil =>
      cases success
      exact held
  | cons first rest ih =>
      simp only [reserveDomains, bind_eq_ok] at success
      obtain ⟨⟨mid, job⟩, reserved, ⟨last, more⟩, remaining, same⟩ := success
      cases same
      obtain ⟨absent, distinctRest⟩ := List.nodup_cons.mp distinct
      have moved : mid.policyOf domainId =
          some (if first = domainId then policy.reservedAt now else policy) := by
        obtain ⟨_, _, rfl⟩ := reserveDomain_eq_ok reserved
        exact policyOf_change held rfl fun _ => rfl
      rw [ih distinctRest moved remaining]
      by_cases own : first = domainId
      · rw [if_pos own, ← own, if_neg absent, if_pos List.mem_cons_self]
      · rw [if_neg own]
        have both : domainId ∈ first :: rest ↔ domainId ∈ rest := by
          rw [List.mem_cons]
          exact or_iff_right fun same => own same.symm
        rw [if_congr both rfl rfl]

theorem reserveDue_rescheduled (keys : Keys db) {now : Time} {limit : Nat}
    {fresh : Uuid → FreshJob} {jobs : List CrawlJobV1}
    (held : db.policyOf domainId = some policy)
    (success : reserveDue db now limit fresh = .ok (next, jobs)) :
    Rescheduled domainId policy (rescheduledTo domainId db (.reserveDue now limit fresh)) next := by
  have loop : next.policyOf domainId =
      some (if domainId ∈ dueDomains db now limit then policy.reservedAt now else policy) := by
    unfold reserveDue at success
    split at success
    next none =>
      cases success
      rw [none]
      exact held
    next =>
      split at success
      · cases success
      · exact reserveDomains_policyOf (dueDomains_nodup keys.policyKeys) held success
  refine ⟨_, loop, ?_⟩
  unfold rescheduledTo
  dsimp only
  rw [held]
  split <;> rfl

theorem attemptWithPolicy_held {selected : AttemptRow → Bool} {attempt : AttemptRow}
    {own : PolicyRow} (keys : Keys db)
    (found : db.attemptWithPolicy selected = some (attempt, own)) :
    db.policyOf attempt.domainId = some own := by
  obtain ⟨_, _, inPolicies, same⟩ := attemptWithPolicy_eq_some found
  rw [← same]
  exact policyOf_mem keys inPolicies

/-- A report that resolves its attempt moves the policy of the attempt's domain. -/
theorem report_rescheduled (keys : Keys db) {selected : AttemptRow → Bool}
    {dueAt : PolicyRow → AttemptRow → Option Time} {attempt : AttemptRow} {own : PolicyRow}
    {change : PolicyRow → PolicyRow} (held : db.policyOf domainId = some policy)
    (found : db.attemptWithPolicy selected = some (attempt, own))
    (unresolved : attempt.status.isTerminal = false)
    (policies : next.policies =
      updateWhere (fun row => row.domainId == attempt.domainId) change db.policies)
    (keeps : ∀ row, (change row).domainId = row.domainId)
    (written : ∃ time, dueAt own attempt = some time ∧ (change own).nextCrawlAt = some time) :
    Rescheduled domainId policy (reportDue domainId db selected dueAt) next := by
  refine Rescheduled.change held policies keeps ?_ ?_
  · intro same
    have equal := attemptWithPolicy_held keys found
    rw [same, held] at equal
    obtain rfl := Option.some.inj equal
    obtain ⟨time, computed, stored⟩ := written
    refine ⟨time, ?_, stored⟩
    rw [reportDue, found]
    change (if attempt.domainId = domainId ∧ attempt.status.isTerminal = false then _ else _) = _
    rw [if_pos ⟨same, unresolved⟩, computed]
  · intro different
    rw [reportDue, found]
    exact if_neg fun both => different both.1

/-- A repeated report changes nothing. -/
theorem report_repeated {selected : AttemptRow → Bool}
    {dueAt : PolicyRow → AttemptRow → Option Time} {attempt : AttemptRow} {own : PolicyRow}
    (held : db.policyOf domainId = some policy)
    (found : db.attemptWithPolicy selected = some (attempt, own))
    (terminal : attempt.status.isTerminal = true) :
    Rescheduled domainId policy (reportDue domainId db selected dueAt) db := by
  have none : reportDue domainId db selected dueAt = none := by
    rw [reportDue, found]
    refine if_neg fun both => ?_
    rw [terminal] at both
    cases both.2
  rw [none]
  exact Rescheduled.unchanged held rfl

theorem recordAttemptOutcome_rescheduled (keys : Keys db) {jobId : Uuid}
    {outcome : CrawlAttemptOutcome} {now : Time} {settings : SchedulerSettings} {fresh : FreshJob}
    (held : db.policyOf domainId = some policy)
    (success : recordAttemptOutcome db jobId outcome now settings fresh = .ok next) :
    Rescheduled domainId policy (reportDue domainId db (fun attempt => attempt.jobId == jobId)
      fun policy attempt => outcomeDue policy attempt now settings outcome) next := by
  simp only [recordAttemptOutcome, bind_eq_ok, orError_eq_ok] at success
  obtain ⟨⟨attempt, own⟩, found, branch⟩ := success
  split at branch
  next terminal =>
    cases branch
    exact report_repeated held found terminal
  next unresolved =>
    have active : attempt.status.isTerminal = false := Bool.eq_false_iff.mpr unresolved
    split at branch
    · obtain ⟨_, rfl⟩ := recordSucceeded_eq_ok branch
      exact report_rescheduled keys held found active rfl (fun _ => rfl) ⟨_, rfl, rfl⟩
    · obtain ⟨_, _, ⟨delay, retryAt, few, waits, added, _, _, rfl⟩ | ⟨many, rfl⟩⟩ :=
        recordFailed_eq_ok branch
      · refine report_rescheduled keys held found active rfl (fun _ => rfl) ⟨retryAt, ?_, rfl⟩
        rw [outcomeDue, if_pos few, waits]
        exact added
      · refine report_rescheduled keys held found active rfl (fun _ => rfl) ⟨_, ?_, rfl⟩
        rw [outcomeDue, if_neg (Nat.not_le.mpr many)]

theorem recordSuccess_rescheduled (keys : Keys db) {job : CrawlJobV1}
    {record : SuccessfulCrawlRecord} {fresh : FreshSnapshot}
    (held : db.policyOf domainId = some policy)
    (success : recordSuccess db job record fresh = .ok next) :
    Rescheduled domainId policy
      (rescheduledTo domainId db (.recordSuccess job record fresh)) next := by
  simp only [recordSuccess, bind_eq_ok, orError_eq_ok] at success
  obtain ⟨⟨attempt, own⟩, found, branch⟩ := success
  change Rescheduled domainId policy (reportDue domainId db (AttemptRow.matchesJob job)
    fun policy _ => some (record.snapshot.capturedAt + policy.desiredInterval)) next
  split at branch
  next terminal =>
    cases branch
    exact report_repeated held found terminal
  next unresolved =>
    obtain ⟨_, _, _, _, _, _, rfl⟩ := persistSuccess_eq_ok (mapError_eq_ok.mp branch)
    exact report_rescheduled keys held found (Bool.eq_false_iff.mpr unresolved) rfl (fun _ => rfl)
      ⟨_, rfl, rfl⟩

/-- An accepted request moves the policy it found. -/
theorem request_rescheduled (keys : Keys db) {own : PolicyRow} {change : PolicyRow → PolicyRow}
    {accepted : Option Time} {time : Time} (held : db.policyOf domainId = some policy)
    (member : own ∈ db.policies)
    (policies : next.policies =
      updateWhere (fun row => row.domainId == own.domainId) change db.policies)
    (keeps : ∀ row, (change row).domainId = row.domainId)
    (stored : (change own).nextCrawlAt = some time)
    (same : accepted = if own.domainId = domainId then some time else none) :
    Rescheduled domainId policy accepted next := by
  refine Rescheduled.change held policies keeps ?_ ?_
  · intro here
    have equal := policyOf_mem keys member
    rw [here, held] at equal
    obtain rfl := Option.some.inj equal
    exact ⟨time, by rw [same, if_pos here], stored⟩
  · intro different
    rw [same, if_neg different]

theorem requestDomainCrawl_rescheduled (keys : Keys db) {domain : CanonicalDomain}
    {actorSubject : Text} {now : Time} (held : db.policyOf domainId = some policy)
    (success : requestDomainCrawl db domain actorSubject now = .ok next) :
    Rescheduled domainId policy
      (acceptedAt domainId db (.requestDomainCrawl domain actorSubject now)) next := by
  have accepted := success
  simp only [requestDomainCrawl, bind_eq_ok, orError_eq_ok, Database.updatePolicy,
    updatePolicies_eq_some] at success
  obtain ⟨own, found, _, _, mid, ⟨_, rfl⟩, audited⟩ := success
  have same := (audit_undisturbed audited).crawl
  refine request_rescheduled keys held (activePolicy_mem found) same.policies (fun _ => rfl) rfl ?_
  simp [acceptedAt, found, accepted, Except.isOk, Except.toBool]

theorem requestRefresh_rescheduled (keys : Keys db) {domain : CanonicalDomain}
    {requestedAt : Time} {cooldown : Duration} {request : PublicRefreshRequest}
    (held : db.policyOf domainId = some policy)
    (success : requestRefresh db domain requestedAt cooldown = .ok (next, request)) :
    Rescheduled domainId policy
      (acceptedAt domainId db (.requestRefresh domain requestedAt cooldown)) next := by
  have accepted := success
  simp only [requestRefresh, bind_eq_ok, orError_eq_ok, Database.updatePolicy,
    updatePolicies_eq_some] at success
  obtain ⟨_, _, own, found, _, _, _, _, _, ⟨_, rfl⟩, same⟩ := success
  cases same
  refine request_rescheduled keys held (activePolicy_mem found) rfl (fun _ => rfl) rfl ?_
  simp [acceptedAt, found, accepted, Except.isOk, Except.toBool]

/-- One step that commits: what it leaves of the domain's policy. -/
theorem transact_rescheduled (keys : Keys db) (held : db.policyOf domainId = some policy)
    (step : isCrawlStep call = true) (committed : transact crate db call = some next) :
    Rescheduled domainId policy (rescheduledTo domainId db call) next := by
  cases call <;> simp only [isCrawlStep, Bool.false_eq_true] at step <;>
    simp only [transact, toOption_eq_some, map_eq_ok, Prod.exists, exists_and_right,
      exists_eq_right] at committed
  case reserveDue now limit fresh =>
    obtain ⟨jobs, success⟩ := committed
    exact reserveDue_rescheduled keys held success
  case claimAttempt job startedAt =>
    obtain ⟨claimed, success⟩ := committed
    refine Rescheduled.unchanged held ?_
    obtain ⟨_, _, _, ⟨_, _, rfl⟩ | ⟨_, _, _, updated⟩⟩ := claimAttempt_cases success
    · rfl
    · obtain ⟨_, rfl⟩ := updateAttempt_eq_some.mp updated
      rfl
  case recordSuccess job record fresh => exact recordSuccess_rescheduled keys held committed
  case recordFailure job failure finishedAt settings fresh =>
    exact recordAttemptOutcome_rescheduled keys held (mapError_eq_ok.mp committed)
  case recordAttemptOutcome jobId outcome now settings fresh =>
    exact recordAttemptOutcome_rescheduled keys held committed
  case requestDomainCrawl domain actorSubject now =>
    exact requestDomainCrawl_rescheduled keys held committed
  case requestRefresh domain requestedAt cooldown =>
    obtain ⟨request, success⟩ := committed
    exact requestRefresh_rescheduled keys held success

/-- A domain that is due by the time stays so exactly where the step does not postpone it. -/
theorem exec_dueBy_iff (keys : Keys db) (step : isCrawlStep call = true)
    (isDue : DueBy domainId due db) :
    DueBy domainId due (exec crate db call) ↔ postpones crate domainId due db call = false := by
  cases committed : transact crate db call with
  | none =>
      rw [exec, postpones, committed]
      exact iff_of_true isDue rfl
  | some next =>
      have reached : exec crate db call = next := by simp [exec, committed]
      obtain ⟨policy, member, own, _⟩ := id isDue
      have held := policyOf_mem keys member
      rw [own] at held
      obtain ⟨later, kept, written⟩ := transact_rescheduled keys held step committed
      have laterKeys : Keys next := reached ▸ exec_keys crate db call keys
      rw [reached, dueBy_iff laterKeys kept, written, postpones, committed]
      cases rescheduledTo domainId db call with
      | none =>
          rw [Option.none_or, ← dueBy_iff keys held]
          exact iff_of_true isDue rfl
      | some time =>
          simp

/-- A request is kept until it is claimed, in every state of the run, exactly when no step
before the claim postpones the domain. -/
theorem run_dueBy_iff (keys : Keys db) (calls : List Call)
    (steps : ∀ call ∈ calls, isCrawlStep call = true) (isDue : DueBy domainId due db) :
    (∀ early, early <+: calls → DueBy domainId due (run (exec crate) db early) ∨
      claimedIn crate domainId db early = true) ↔ Unpostponed crate domainId due db calls := by
  induction calls generalizing db with
  | nil =>
      refine iff_of_true ?_ trivial
      intro early none
      rw [List.prefix_nil.mp none]
      exact Or.inl isDue
  | cons call rest ih =>
      have first := steps call List.mem_cons_self
      have others : ∀ other ∈ rest, isCrawlStep other = true :=
        fun other member => steps other (List.mem_cons_of_mem call member)
      have laterKeys := exec_keys crate db call keys
      by_cases claimed : claims crate domainId db call = true
      · refine iff_of_true ?_ (Or.inl claimed)
        intro early isPrefix
        cases early with
        | nil => exact Or.inl isDue
        | cons own more =>
            obtain ⟨rfl, _⟩ := List.cons_prefix_cons.mp isPrefix
            refine Or.inr ?_
            rw [claimedIn, claimed]
            rfl
      · have unclaimed : claims crate domainId db call = false := Bool.eq_false_iff.mpr claimed
        constructor
        · intro kept
          have next : DueBy domainId due (exec crate db call) := by
            rcases kept [call] (List.prefix_append [call] rest) with stays | claimedNow
            · exact stays
            · simp [claimedIn, unclaimed] at claimedNow
          refine Or.inr ⟨(exec_dueBy_iff keys first isDue).mp next, ?_⟩
          refine (ih laterKeys others next).mp ?_
          intro early isPrefix
          have whole := kept (call :: early) (List.cons_prefix_cons.mpr ⟨rfl, isPrefix⟩)
          rw [run_cons, claimedIn, unclaimed, Bool.false_or] at whole
          exact whole
        · rintro (claimedNow | ⟨stays, later⟩)
          · exact absurd claimedNow claimed
          · have next := (exec_dueBy_iff keys first isDue).mpr stays
            intro early isPrefix
            cases early with
            | nil => exact Or.inl isDue
            | cons own more =>
                obtain ⟨rfl, tail⟩ := List.cons_prefix_cons.mp isPrefix
                rw [run_cons, claimedIn, unclaimed, Bool.false_or]
                exact (ih laterKeys others next).mpr later more tail

theorem acceptedAt_policy {request : Call} (accepted : acceptedAt domainId db request = some due) :
    ∃ policy ∈ db.policies, policy.domainId = domainId := by
  have ofDomain : ∀ {domain : CanonicalDomain} {accepts : PolicyRow → Bool}
      {time : PolicyRow → Time}, (db.activePolicy domain).bind (fun policy =>
        if policy.domainId == domainId && accepts policy then some (time policy) else none) =
          some due → ∃ policy ∈ db.policies, policy.domainId = domainId := by
    intro domain accepts time accepted
    obtain ⟨policy, found, chosen⟩ := Option.bind_eq_some_iff.mp accepted
    split at chosen
    next both =>
      have own := (Bool.and_eq_true_iff.mp both).1
      exact ⟨policy, activePolicy_mem found, beq_iff_eq.mp own⟩
    next => cases chosen
  cases request <;> first | exact ofDomain accepted | cases accepted

theorem exec_accepted_dueBy {request : Call} (keys : Keys db)
    (accepted : acceptedAt domainId db request = some due) :
    DueBy domainId due (exec crate db request) := by
  cases committed : transact crate db request with
  | none =>
      rw [acceptedAt_of_rejected committed] at accepted
      cases accepted
  | some next =>
      have reached : exec crate db request = next := by simp [exec, committed]
      obtain ⟨policy, member, own⟩ := acceptedAt_policy accepted
      have held := policyOf_mem keys member
      rw [own] at held
      have step : isCrawlStep request = true := by
        cases request <;> first | rfl | cases accepted
      obtain ⟨later, kept, written⟩ := transact_rescheduled keys held step committed
      have time : rescheduledTo domainId db request = some due := by
        cases request <;> first | exact accepted | cases accepted
      have laterKeys : Keys next := reached ▸ exec_keys crate db request keys
      rw [reached, dueBy_iff laterKeys kept, written, time]
      exact decide_eq_true (le_refl due)

/-- After an accepted request, in every later state the domain is due by its time or a crawl
of it has been claimed since, exactly in the runs in which nothing postpones the domain past
the time before such a claim. -/
theorem accepted_request_kept_iff (crate : UrlCrate) (catalogue : Catalogue)
    (before after : List Call) (request : Call) (domainId : Uuid) (due : Time)
    (accepted : acceptedAt domainId (reached crate catalogue before) request = some due)
    (steps : ∀ call ∈ after, isCrawlStep call = true) :
    let start := reached crate catalogue (before ++ [request])
    (∀ early, early <+: after →
      DueBy domainId due (reached crate catalogue (before ++ [request] ++ early)) ∨
        claimedIn crate domainId start early = true) ↔
      Unpostponed crate domainId due start after := by
  have keys : Keys (reached crate catalogue before) :=
    run_invariant (exec_keys crate) _ _ (initial_keys catalogue)
  have laterKeys : Keys (reached crate catalogue (before ++ [request])) :=
    run_invariant (exec_keys crate) _ _ (initial_keys catalogue)
  have start : DueBy domainId due (reached crate catalogue (before ++ [request])) := by
    rw [reached, run_append]
    exact exec_accepted_dueBy keys accepted
  intro first
  have runs : ∀ early, reached crate catalogue (before ++ [request] ++ early) =
      run (exec crate) first early := fun early => run_append _ _ _ early
  simp only [runs]
  exact run_dueBy_iff laterKeys after steps start

/-- A crawl that is reserved before the request and claimed after it. -/
def reservedCrawl : List Call :=
  [.createWithAudit 1 exampleDomain DomainCreationDefaults.crawlPolicy "operator".toList 0,
    .reserveDue 4 10 fun _ => ⟨10, 11, 12⟩]

def laterRequest : Call := .requestDomainCrawl exampleDomain "operator".toList 10

def reservedJob : CrawlJobV1 := newJobWithCorrelation 1 12 11

theorem reservedCrawl_kept :
    let start := reached plainUrlCrate Catalogue.empty (reservedCrawl ++ [laterRequest])
    let after := [.claimAttempt reservedJob 11, .reserveDue 12 10 fun _ => ⟨20, 21, 22⟩]
    ∀ early, early <+: after →
      DueBy 1 10 (reached plainUrlCrate Catalogue.empty
          (reservedCrawl ++ [laterRequest] ++ early)) ∨
        claimedIn plainUrlCrate 1 start early = true :=
  (accepted_request_kept_iff plainUrlCrate Catalogue.empty reservedCrawl
    [.claimAttempt reservedJob 11, .reserveDue 12 10 fun _ => ⟨20, 21, 22⟩] laterRequest 1 10
    (by decide) (by decide)).mpr (Or.inl (by decide))

/-- The crawl is claimed before the request, and its page is captured after it. -/
def inFlightCrawl : List Call := reservedCrawl ++ [.claimAttempt reservedJob 5]

def inFlightSuccess : Call :=
  .recordSuccess reservedJob {
    snapshot := {
      requestedUrl := "https://example.com/".toList
      finalUrl := "https://example.com/".toList
      redirects := []
      responseStatus := 200
      responseHeaders := []
      bodySizeBytes := 0
      capturedAt := 20
      countryObservation := none }
    artifact := none
    detections := []
    observations := [] } ⟨40, fun n => 50 + n⟩

/-- The success overwrites the time of the request: the domain is due an interval later, no
crawl of it is queued, and nobody claims one. -/
theorem inFlightCrawl_overwrites :
    let start := reached plainUrlCrate Catalogue.empty (inFlightCrawl ++ [laterRequest])
    let last := reached plainUrlCrate Catalogue.empty
      (inFlightCrawl ++ [laterRequest] ++ [inFlightSuccess])
    acceptedAt 1 (reached plainUrlCrate Catalogue.empty inFlightCrawl) laterRequest = some 10 ∧
      isCrawlStep inFlightSuccess = true ∧
      ¬(DueBy 1 10 last ∨ claimedIn plainUrlCrate 1 start [inFlightSuccess] = true) ∧
      ∀ attempt ∈ last.attempts, attempt.status ≠ .queued := by
  decide

/-- Between a reservation and its claim the request stands only in the queue. -/
example :
    let (before, request, after) := requestedCrawl
    let start := reached plainUrlCrate Catalogue.empty (before ++ [request])
    let last := reached plainUrlCrate Catalogue.empty (before ++ [request] ++ after)
    ¬(DueBy 1 5 last ∨ claimedIn plainUrlCrate 1 start after = true) := by
  decide

end Postponement

end TechAtlas.Crawl
