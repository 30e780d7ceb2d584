import TechAtlas.Search.Freshness

set_option autoImplicit false

/- Recrawls of many domains at once: of an import, and of the domains whose country is
not known. One statement makes them due and the next reservation queues them. -/
namespace TechAtlas.Crawl

open Library Store

section Specification

variable (db : Database) (importId domainId : Uuid)

/-- The domains of the rows of an import, once each. -/
def batchDomains : List Uuid :=
  ((db.importRows.filter fun row => row.importId == importId).filterMap ImportRow.domainId).dedup

/-- The domain may be crawled, and no crawl of it is under way. -/
def isIdle : Bool :=
  (db.policyOf domainId).any PolicyRow.isEnabled && !db.hasActiveAttempt domainId

def lacksCountry : Bool := db.hasSnapshot domainId && !db.hasCountry domainId

/-- The domains are due, every other one is as it was, and a reservation that has room
for all that are due queues a crawl of each. -/
structure MadeDue (chosen : List Uuid) (now : Time) (next : Database) : Prop where
  due : ∀ domainId ∈ chosen, ∃ policy, next.policyOf domainId = some policy ∧
    isDue next now policy = true
  others : ∀ domainId ∉ chosen, next.policyOf domainId = db.policyOf domainId
  reserved : ∀ later limit fresh last jobs, now ≤ later →
    next.policies.countP (isDue next later) ≤ limit →
    reserveDue next later limit fresh = .ok (last, jobs) → ∀ domainId ∈ chosen,
      ∃ attempt ∈ last.attempts, attempt.domainId = domainId ∧ attempt.status = .queued

end Specification

section Reservations

variable {db next : Database} {now : Time} {fresh : Uuid → FreshJob} {jobs : List CrawlJobV1}

/-- The loop queues a crawl of each domain and takes none away. -/
theorem reserveDomains_queues {domainIds : List Uuid}
    (success : reserveDomains now fresh db domainIds = .ok (next, jobs)) :
    db.attempts ⊆ next.attempts ∧ ∀ domainId ∈ domainIds,
      ∃ attempt ∈ next.attempts, attempt.domainId = domainId ∧ attempt.status = .queued := by
  induction domainIds generalizing db jobs with
  | nil =>
      cases success
      exact ⟨List.Subset.refl _, fun _ member => nomatch member⟩
  | cons first rest ih =>
      simp only [reserveDomains, bind_eq_ok] at success
      obtain ⟨⟨mid, job⟩, reserved, ⟨last, more⟩, remaining, same⟩ := success
      cases same
      obtain ⟨kept, queued⟩ := ih remaining
      obtain ⟨_, _, rfl⟩ := reserveDomain_eq_ok reserved
      refine ⟨fun _ old => kept (List.mem_append_left _ old), ?_⟩
      intro domainId member
      rcases List.mem_cons.mp member with rfl | later
      · exact ⟨_, kept (List.mem_append_right _ (List.mem_singleton_self _)), rfl, rfl⟩
      · exact queued domainId later

/-- With room for all of them, every due domain is reserved. -/
theorem mem_dueDomains {limit : Nat} (room : db.policies.countP (isDue db now) ≤ limit)
    {policy : PolicyRow} (member : policy ∈ db.policies) (due : isDue db now policy = true) :
    policy.domainId ∈ dueDomains db now limit := by
  have whole : ((db.policies.filter (isDue db now)).insertionSort fun left right =>
      left.dueBefore right).length ≤ limit := by
    rw [List.length_insertionSort, ← List.countP_eq_length_filter]
    exact room
  rw [dueDomains, List.take_of_length_le whole]
  apply List.mem_map_of_mem
  rw [List.mem_insertionSort, List.mem_filter]
  exact ⟨member, due⟩

theorem reserveDue_queues {limit : Nat} (room : db.policies.countP (isDue db now) ≤ limit)
    (success : reserveDue db now limit fresh = .ok (next, jobs)) {policy : PolicyRow}
    (member : policy ∈ db.policies) (due : isDue db now policy = true) :
    ∃ attempt ∈ next.attempts, attempt.domainId = policy.domainId ∧
      attempt.status = .queued := by
  have some : 0 < limit := by
    have counted : 0 < db.policies.countP (isDue db now) :=
      List.countP_pos_iff.mpr ⟨policy, member, due⟩
    omega
  rw [reserveDue, if_neg (by omega)] at success
  split at success
  · cases success
  · exact (reserveDomains_queues success).2 _ (mem_dueDomains room member due)

theorem isDue_mono {later : Time} (order : now ≤ later) {policy : PolicyRow}
    (due : isDue db now policy = true) : isDue db later policy = true := by
  unfold isDue at due ⊢
  simp only [Bool.and_eq_true] at due ⊢
  refine ⟨⟨due.1.1, ?_⟩, due.2⟩
  have next := due.1.2
  cases scheduled : policy.nextCrawlAt with
  | none => rfl
  | some time =>
      rw [scheduled, Option.all_some, decide_eq_true_eq] at next
      rw [Option.all_some, decide_eq_true_eq]
      exact Int.le_trans next order

end Reservations

section Recrawls

variable {db next : Database} {now : Time} {chosen : List Uuid} {selected : PolicyRow → Bool}

theorem policyOf_eq_some_iff (keys : Keys db) {domainId : Uuid} {policy : PolicyRow} :
    db.policyOf domainId = some policy ↔ policy ∈ db.policies ∧ policy.domainId = domainId :=
  find?_key_eq_some keys.policyKeys

/-- The statement that makes domains due, if it selects idle ones by their policies. -/
theorem madeDue (keys : Keys db) (housed : Search.Housed db)
    (idle : ∀ domainId ∈ chosen, isIdle db domainId = true)
    (selects : ∀ policy ∈ db.policies, selected policy = true ↔ policy.domainId ∈ chosen)
    (same : SameCrawl { db with
      policies := updateWhere selected (PolicyRow.scheduledAt now) db.policies } next) :
    MadeDue db chosen now next := by
  have policies := same.policies
  have nextKeys : (next.policies.map PolicyRow.domainId).Nodup := by
    rw [policies, updateWhere_map _ fun _ => by rfl]
    exact keys.policyKeys
  have due : ∀ domainId ∈ chosen, ∃ policy ∈ next.policies, policy.domainId = domainId ∧
      isDue next now policy = true := by
    intro domainId member
    have ready := idle domainId member
    rw [isIdle, Bool.and_eq_true] at ready
    obtain ⟨policy, found, enabled⟩ := Option.any_eq_true _ _ |>.mp ready.1
    obtain ⟨inPolicies, rfl⟩ := (policyOf_eq_some_iff keys).mp found
    refine ⟨policy.scheduledAt now, ?_, rfl, ?_⟩
    · rw [policies]
      exact mem_updateWhere_of_selected inPolicies ((selects policy inPolicies).mpr member)
    · obtain ⟨domain, listed, same'⟩ := housed.owned _ (List.mem_map_of_mem inPolicies)
      have active : next.domains.any (fun domain =>
          domain.id == policy.domainId && domain.isActive) = true := by
        rw [List.any_eq_true, same.domains]
        exact ⟨domain, listed, by simp [same', DomainRow.isActive, housed.active domain listed]⟩
      have free : next.hasActiveAttempt policy.domainId = false := by
        rw [Database.hasActiveAttempt, same.attempts]
        exact (Bool.not_eq_true' _).mp ready.2
      show ((next.domains.any fun domain => domain.id == policy.domainId && domain.isActive) &&
        policy.isEnabled && decide (now ≤ now) && !next.hasActiveAttempt policy.domainId) = true
      rw [active, enabled, free]
      simp
  refine ⟨?_, ?_, ?_⟩
  · intro domainId member
    obtain ⟨policy, inPolicies, own, isDue⟩ := due domainId member
    exact ⟨policy, (find?_key_eq_some nextKeys).mpr ⟨inPolicies, own⟩, isDue⟩
  · intro domainId other
    refine policyOf_updateWhere_other policies (fun _ => rfl) ?_
    rintro policy inPolicies rfl
    rw [← Bool.not_eq_true]
    exact fun chosen => other ((selects policy inPolicies).mp chosen)
  · intro later limit fresh last jobs order room success domainId member
    obtain ⟨policy, inPolicies, rfl, isDue⟩ := due domainId member
    exact reserveDue_queues room success inPolicies (isDue_mono order isDue)

theorem isIdle_policy (keys : Keys db) {policy : PolicyRow} (member : policy ∈ db.policies) :
    isIdle db policy.domainId = (policy.isEnabled && !db.hasActiveAttempt policy.domainId) := by
  rw [isIdle, (policyOf_eq_some_iff keys).mpr ⟨member, rfl⟩]
  rfl

theorem isIdle_known {domainId : Uuid} (idle : isIdle db domainId = true) :
    ∃ policy ∈ db.policies, policy.domainId = domainId := by
  rw [isIdle, Bool.and_eq_true] at idle
  obtain ⟨policy, found, _⟩ := Option.any_eq_true _ _ |>.mp idle.1
  exact ⟨policy, policyOf_eq_some found⟩

theorem mem_batchDomains {importId domainId : Uuid} : domainId ∈ batchDomains db importId ↔
    ∃ row ∈ db.importRows, row.importId = importId ∧ row.domainId = some domainId := by
  rw [batchDomains, List.mem_dedup, List.mem_filterMap]
  constructor
  · rintro ⟨row, member, named⟩
    obtain ⟨inTable, own⟩ := List.mem_filter.mp member
    exact ⟨row, inTable, beq_iff_eq.mp own, named⟩
  · rintro ⟨row, inTable, own, named⟩
    exact ⟨row, List.mem_filter.mpr ⟨inTable, beq_iff_eq.mpr own⟩, named⟩

/-- The statement of an import selects the policies of its idle domains: none of them
is archived. -/
theorem inImportBatch_iff (keys : Keys db) (housed : Search.Housed db) (importId : Uuid)
    {policy : PolicyRow} (member : policy ∈ db.policies) :
    inImportBatch db importId policy = true ↔
      policy.domainId ∈ (batchDomains db importId).filter (isIdle db) := by
  obtain ⟨domain, listed, same⟩ := housed.owned _ (List.mem_map_of_mem member)
  have active : db.domains.any (fun domain =>
      domain.id == policy.domainId && domain.isActive) = true := by
    rw [List.any_eq_true]
    exact ⟨domain, listed, by simp [same, DomainRow.isActive, housed.active domain listed]⟩
  have listedRow : (db.importRows.any fun row => row.importId == importId &&
      row.domainId == some policy.domainId && db.domains.any fun domain =>
        domain.id == policy.domainId && domain.isActive) = true ↔
          policy.domainId ∈ batchDomains db importId := by
    rw [mem_batchDomains, List.any_eq_true]
    simp only [active, Bool.and_true, Bool.and_eq_true, beq_iff_eq]
  rw [List.mem_filter, isIdle_policy keys member, inImportBatch, Bool.and_eq_true,
    Bool.and_eq_true, listedRow, Bool.and_eq_true]
  constructor
  · rintro ⟨⟨enabled, listed⟩, free⟩
    exact ⟨listed, enabled, free⟩
  · rintro ⟨listed, enabled, free⟩
    exact ⟨⟨enabled, listed⟩, free⟩

theorem needsCountry_iff (keys : Keys db) {policy : PolicyRow} (member : policy ∈ db.policies) :
    needsCountry db policy = true ↔ policy.domainId ∈
      ((db.policies.map PolicyRow.domainId).filter (isIdle db)).filter (lacksCountry db) := by
  rw [List.mem_filter, List.mem_filter, isIdle_policy keys member, needsCountry, lacksCountry]
  simp only [Bool.and_eq_true, List.mem_map_of_mem member, true_and]
  constructor
  · rintro ⟨⟨⟨enabled, crawled⟩, unknown⟩, free⟩
    exact ⟨⟨enabled, free⟩, crawled, unknown⟩
  · rintro ⟨⟨enabled, free⟩, crawled, unknown⟩
    exact ⟨⟨⟨enabled, crawled⟩, unknown⟩, free⟩

/-- The statement may refuse the time for one of the domains, and then makes none due. -/
theorem updatePolicies_eq_none {change : PolicyRow → PolicyRow} :
    db.updatePolicies selected change = none ↔
      ∃ policy ∈ db.policies, selected policy = true ∧ (change policy).valid = false := by
  rw [← not_iff_not, ← ne_eq, Option.ne_none_iff_exists']
  simp only [updatePolicies_eq_some, not_exists, not_and, Bool.not_eq_false]
  constructor
  · rintro ⟨result, checked, _⟩
    exact checked
  · intro checked
    exact ⟨_, checked, rfl⟩

end Recrawls

section Runs

variable {db : Database}

/-- A reachable store has its keys, and its domains are not archived. -/
theorem reached_housed (crate : UrlCrate) (catalogue : Catalogue) (calls : List Call) :
    Keys (reached crate catalogue calls) ∧ Search.Housed (reached crate catalogue calls) :=
  run_invariant (P := fun db => Keys db ∧ Search.Housed db)
    (fun db call both => ⟨exec_keys crate db call both.1, Search.exec_housed both.1 both.2 call⟩)
    _ _ ⟨initial_keys catalogue,
      ⟨fun _ member => (nomatch member), fun _ member => (nomatch member)⟩⟩

/-- In every reachable store, a recrawl of an import either makes exactly its idle
domains due and reports how many they are and how many are left out, or is refused: exactly
for an import that is not there, complete and with its source, for a blank actor, or for a
time that one of these policies does not take. -/
theorem batch_recrawl_exact (crate : UrlCrate) (catalogue : Catalogue) (calls : List Call)
    (importId : Uuid) (actorSubject : Text) (now : Time) :
    let db := reached crate catalogue calls
    let batch := batchDomains db importId
    let completed := db.imports.any fun batch => batch.id == importId &&
      batch.status == .completed && db.sources.any fun source => source.id == batch.sourceId
    match scheduleImportBatchRecrawl db importId actorSubject now with
    | .ok (next, counts) => completed = true ∧ (btrim actorSubject).isEmpty = false ∧
        (∀ policy ∈ db.policies, policy.domainId ∈ batch.filter (isIdle db) →
          (policy.scheduledAt now).valid = true) ∧
        MadeDue db (batch.filter (isIdle db)) now next ∧
        counts = {
          requestedDomainCount := batch.length
          scheduledDomainCount := (batch.filter (isIdle db)).length
          skippedDomainCount := (batch.filter fun domainId => !isIdle db domainId).length }
    | .error .notFound => completed = false
    | .error .unavailable => completed = true ∧ ((btrim actorSubject).isEmpty = true ∨
        ∃ policy ∈ db.policies, policy.domainId ∈ batch.filter (isIdle db) ∧
          (policy.scheduledAt now).valid = false)
    | .error _ => False := by
  intro db batch completed
  obtain ⟨keys, housed⟩ := reached_housed crate catalogue calls
  have distinct : (batch.filter (isIdle db)).Nodup := (List.nodup_dedup _).filter _
  have scheduled : db.policies.countP (inImportBatch db importId) =
      (batch.filter (isIdle db)).length :=
    countP_eq_length_of_keys keys.policyKeys distinct
      (fun policy member => inImportBatch_iff keys housed importId member)
      fun domainId member => isIdle_known (List.mem_filter.mp member).2
  have few : (batch.filter (isIdle db)).length ≤ batch.length := List.length_filter_le _ _
  have rest : (batch.filter fun domainId => !isIdle db domainId).length =
      batch.length - (batch.filter (isIdle db)).length := by
    have both := List.length_eq_length_filter_add (isIdle db) (l := batch)
    omega
  cases complete : completed with
  | false =>
      have refused : scheduleImportBatchRecrawl db importId actorSubject now =
          .error .notFound := by
        rw [scheduleImportBatchRecrawl, require, if_neg]
        · rfl
        · rw [Bool.not_eq_true]
          exact complete
      rw [refused]
  | true =>
      have opened : scheduleImportBatchRecrawl db importId actorSubject now =
          (orError (db.updatePolicies (inImportBatch db importId) (PolicyRow.scheduledAt now))
            .unavailable).bind fun mid =>
              (require (decide (db.policies.countP (inImportBatch db importId) ≤
                requestedDomains db importId)) .unavailable).bind fun _ =>
                  (orError (mid.audit {
                    actorSubject := actorSubject
                    action := "import.recrawl_requested"
                    resourceKind := "import"
                    resourceId := importId }) .unavailable).bind fun next =>
                      .ok (next, {
                        requestedDomainCount := requestedDomains db importId
                        scheduledDomainCount := db.policies.countP (inImportBatch db importId)
                        skippedDomainCount := requestedDomains db importId -
                          db.policies.countP (inImportBatch db importId) }) := by
        rw [scheduleImportBatchRecrawl, require, if_pos complete]
        rfl
      rw [opened]
      cases updated : db.updatePolicies (inImportBatch db importId) (PolicyRow.scheduledAt now) with
      | none =>
          obtain ⟨policy, member, selected, invalid⟩ := updatePolicies_eq_none.mp updated
          have chosen := (inImportBatch_iff keys housed importId member).mp selected
          exact ⟨rfl, Or.inr ⟨policy, member, chosen, invalid⟩⟩
      | some mid =>
          obtain ⟨taken, rfl⟩ := updatePolicies_eq_some.mp updated
          have enough : decide (db.policies.countP (inImportBatch db importId) ≤
              requestedDomains db importId) = true := by
            rw [decide_eq_true_eq, scheduled]
            exact few
          rw [enough]
          by_cases blank : (btrim actorSubject).isEmpty = true
          · simp only [Database.audit, if_pos blank]
            exact ⟨trivial, Or.inl blank⟩
          · simp only [Database.audit, if_neg blank]
            refine ⟨trivial, Bool.eq_false_iff.mpr blank, ?_, ?_, ?_⟩
            · intro policy member chosen
              exact taken policy member ((inImportBatch_iff keys housed importId member).mpr chosen)
            · refine madeDue keys housed (fun _ member => (List.mem_filter.mp member).2) ?_ rfl
              exact fun policy member => inImportBatch_iff keys housed importId member
            · rw [scheduled, rest]
              rfl

/-- The same of the domains that have been crawled and whose country is not known. -/
theorem country_recrawl_exact (crate : UrlCrate) (catalogue : Catalogue) (calls : List Call)
    (actorSubject : Text) (now : Time) :
    let db := reached crate catalogue calls
    let chosen := ((db.policies.map PolicyRow.domainId).filter (isIdle db)).filter (lacksCountry db)
    match scheduleCountryEnrichmentRecrawl db actorSubject now with
    | .ok (next, count) => MadeDue db chosen now next ∧ count = chosen.length
    | .error .unavailable => (btrim actorSubject).isEmpty = true ∨
        ∃ policy ∈ db.policies, policy.domainId ∈ chosen ∧ (policy.scheduledAt now).valid = false
    | .error _ => False := by
  intro db chosen
  obtain ⟨keys, housed⟩ := reached_housed crate catalogue calls
  have known : ∀ domainId ∈ chosen, domainId ∈ db.policies.map PolicyRow.domainId ∧
      isIdle db domainId = true :=
    fun domainId member => List.mem_filter.mp (List.mem_filter.mp member).1
  have scheduled : db.policies.countP (needsCountry db) = chosen.length :=
    countP_eq_length_of_keys keys.policyKeys ((keys.policyKeys.filter _).filter _)
      (fun policy member => needsCountry_iff keys member)
      fun domainId member => List.mem_map.mp (known domainId member).1
  unfold scheduleCountryEnrichmentRecrawl
  cases updated : db.updatePolicies (needsCountry db) (PolicyRow.scheduledAt now) with
  | none =>
      obtain ⟨policy, member, selected, invalid⟩ := updatePolicies_eq_none.mp updated
      exact Or.inr ⟨policy, member, (needsCountry_iff keys member).mp selected, invalid⟩
  | some mid =>
      obtain ⟨_, rfl⟩ := updatePolicies_eq_some.mp updated
      by_cases blank : (btrim actorSubject).isEmpty = true
      · simp only [Database.audit, if_pos blank]
        exact Or.inl blank
      · simp only [Database.audit, if_neg blank]
        refine ⟨?_, scheduled⟩
        refine madeDue keys housed (fun domainId member => (known domainId member).2) ?_ rfl
        exact fun policy member => needsCountry_iff keys member

end Runs

end TechAtlas.Crawl
