import TechAtlas.Search.Freshness

set_option autoImplicit false

/- The attempts of search index jobs. Every claim of a row counts as an attempt,
but only a reported failure is compared with the limit, so a claim after an
expired lease can pass it. -/
namespace TechAtlas.Search

open Library Store

variable {crate : UrlCrate} {collation : Collation} {s : Indexing} {db next : Database}
  {maxAttempts : Nat}

section Definitions

/-- A claim returns every row it marked as processing, each within the limit. -/
def Honored (maxAttempts : Nat) (s : Indexing) : Action → Prop
  | .claimReady now lease limit =>
      let (_, claimed, result) := Store.claimReady s.db now lease limit
      let jobs := result.toOption.getD []
      jobs = claimed.map IndexOutboxRow.job ∧ ∀ job ∈ jobs, job.attemptCount ≤ maxAttempts
  | _ => True

instance (maxAttempts : Nat) (s : Indexing) (action : Action) :
    Decidable (Honored maxAttempts s action) :=
  match action with
  | .claimReady now lease limit => inferInstanceAs (Decidable (
      (Store.claimReady s.db now lease limit).2.2.toOption.getD [] =
        (Store.claimReady s.db now lease limit).2.1.map IndexOutboxRow.job ∧
      ∀ job ∈ (Store.claimReady s.db now lease limit).2.2.toOption.getD [],
        job.attemptCount ≤ maxAttempts))
  | .store _ | .loadDomain _ | .loadTechnologies _ | .failLoad _ | .land _ | .respond _
  | .failUpsert _ | .complete _ | .fail .. | .stop _ => isTrue trivial

/-- No row whose attempts are used up is claimed because its lease has expired,
and no failure of a claim that was overtaken is reported for one. -/
def Timely (maxAttempts : Nat) (s : Indexing) : Action → Prop
  | .claimReady now lease limit => ∀ row ∈ readyRows s.db.indexOutbox now lease limit,
      row.status = .processing → row.attemptCount < maxAttempts
  | .fail place _ _ limit _ => limit = maxAttempts ∧
      ∀ writer ∈ s.writers[place]?, ∀ row ∈ s.db.indexOutbox, row.isHeldBy writer.job = true →
        maxAttempts ≤ row.attemptCount → maxAttempts ≤ writer.job.attemptCount
  | _ => True

instance (maxAttempts : Nat) (s : Indexing) (action : Action) :
    Decidable (Timely maxAttempts s action) :=
  match action with
  | .claimReady now lease limit => inferInstanceAs (Decidable (
      ∀ row ∈ readyRows s.db.indexOutbox now lease limit,
        row.status = .processing → row.attemptCount < maxAttempts))
  | .fail place _ _ limit _ => inferInstanceAs (Decidable (limit = maxAttempts ∧
      ∀ writer ∈ s.writers[place]?, ∀ row ∈ s.db.indexOutbox, row.isHeldBy writer.job = true →
        maxAttempts ≤ row.attemptCount → maxAttempts ≤ writer.job.attemptCount))
  | .store _ | .loadDomain _ | .loadTechnologies _ | .failLoad _ | .land _ | .respond _
  | .failUpsert _ | .complete _ | .stop _ => isTrue trivial

/-- No row is over the limit, and one that waits for a claim is below it. -/
def WithinLimit (maxAttempts : Nat) (db : Database) : Prop :=
  ∀ row ∈ db.indexOutbox, row.attemptCount ≤ maxAttempts ∧
    (row.status = .pending ∨ row.status = .retry → row.attemptCount < maxAttempts)

structure Budgeted (maxAttempts : Nat) (db : Database) : Prop where
  keys : Keys db
  rows : Rows db
  within : WithinLimit maxAttempts db

end Definitions

section Claims

theorem isReady_status {now : Time} {lease : Duration} {row : IndexOutboxRow}
    (ready : row.isReady now lease = true) :
    (row.status = .pending ∨ row.status = .retry) ∨ row.status = .processing := by
  simp only [IndexOutboxRow.isReady, Bool.or_eq_true, Bool.and_eq_true, beq_iff_eq] at ready
  rcases ready with ⟨waiting, _⟩ | ⟨processing, _⟩
  · exact Or.inl waiting
  · exact Or.inr processing

theorem readyRows_ready {rows : List IndexOutboxRow} {now : Time} {lease : Duration} {limit : Nat}
    {row : IndexOutboxRow} (member : row ∈ readyRows rows now lease limit) :
    row.isReady now lease = true := by
  have sorted := List.mem_of_mem_take member
  rw [List.mem_insertionSort, List.mem_filter] at sorted
  exact sorted.2

theorem ready_below {now : Time} {lease : Duration} {limit : Nat}
    (within : WithinLimit maxAttempts s.db)
    (timely : Timely maxAttempts s (.claimReady now lease limit)) :
    ∀ row ∈ readyRows s.db.indexOutbox now lease limit, row.attemptCount < maxAttempts := by
  intro row member
  rcases isReady_status (readyRows_ready member) with waiting | processing
  · exact (within row (readyRows_mem member)).2 waiting
  · exact timely row member processing

/-- A claim is honored exactly if no row it takes has used up its attempts. -/
theorem honored_claim_iff {now : Time} {lease : Duration} {limit : Nat}
    (narrow : maxAttempts < 256) (small : limit < 2 ^ 63)
    (room : ∀ row ∈ readyRows s.db.indexOutbox now lease limit, row.attemptCount + 1 < 2 ^ 15) :
    Honored maxAttempts s (.claimReady now lease limit) ↔
      ∀ row ∈ readyRows s.db.indexOutbox now lease limit, row.attemptCount < maxAttempts := by
  have succeeds : (decide (2 ^ 63 ≤ limit) ||
      (readyRows s.db.indexOutbox now lease limit).any fun row =>
        decide (2 ^ 15 ≤ row.attemptCount + 1)) = false := by
    rw [Bool.or_eq_false_iff, decide_eq_false_iff_not, List.any_eq_false]
    refine ⟨Nat.not_le.mpr small, ?_⟩
    intro row member exceeds
    have fits := room row member
    rw [decide_eq_true_eq] at exceeds
    omega
  simp only [Honored, Store.claimReady, succeeds, Bool.false_eq_true, if_false]
  constructor
  · intro honored row member
    split at honored
    · have own : (row.claimedFor now).job ∈ ((readyRows s.db.indexOutbox now lease limit).map
          (IndexOutboxRow.claimedFor now)).map IndexOutboxRow.job :=
        List.mem_map_of_mem (List.mem_map_of_mem member)
      have bounded : row.attemptCount + 1 ≤ maxAttempts := honored.2 _ own
      omega
    · -- nothing is returned, so nothing was marked
      have empty := honored.1.symm
      rw [Except.toOption, Option.getD_none, List.map_eq_nil_iff, List.map_eq_nil_iff] at empty
      rw [empty] at member
      cases member
  · intro below
    have decodes : ((readyRows s.db.indexOutbox now lease limit).map
        (IndexOutboxRow.claimedFor now)).all (fun row => decide (row.attemptCount < 256)) = true := by
      rw [List.all_map, List.all_eq_true]
      intro row member
      have bound := below row member
      have fits : row.attemptCount + 1 < 256 := by omega
      exact decide_eq_true fits
    rw [if_pos decodes]
    refine ⟨rfl, ?_⟩
    intro job member
    obtain ⟨claimed, inClaimed, rfl⟩ := List.mem_map.mp member
    obtain ⟨row, inReady, rfl⟩ := List.mem_map.mp inClaimed
    exact below row inReady

theorem honored_of_below {now : Time} {lease : Duration} {limit : Nat}
    (narrow : maxAttempts < 256)
    (below : ∀ row ∈ readyRows s.db.indexOutbox now lease limit, row.attemptCount < maxAttempts) :
    Honored maxAttempts s (.claimReady now lease limit) := by
  by_cases small : limit < 2 ^ 63
  · refine (honored_claim_iff narrow small ?_).mpr below
    intro row member
    have bound := below row member
    omega
  · -- the statement is not sent, and nothing is marked
    have refused : (decide (2 ^ 63 ≤ limit) ||
        (readyRows s.db.indexOutbox now lease limit).any fun row =>
          decide (2 ^ 15 ≤ row.attemptCount + 1)) = true := by
      rw [Bool.or_eq_true]
      exact Or.inl (decide_eq_true (Nat.le_of_not_lt small))
    simp only [Honored, Store.claimReady, refused, if_true]
    refine ⟨rfl, ?_⟩
    intro job member
    cases member

end Claims

section Steps

theorem WithinLimit.update (within : WithinLimit maxAttempts db)
    {selected : IndexOutboxRow → Bool} {change : IndexOutboxRow → IndexOutboxRow}
    (changed : ∀ row ∈ db.indexOutbox, selected row = true →
      (change row).attemptCount ≤ maxAttempts ∧
      ((change row).status = .pending ∨ (change row).status = .retry →
        (change row).attemptCount < maxAttempts)) :
    WithinLimit maxAttempts
      { db with indexOutbox := updateWhere selected change db.indexOutbox } := by
  intro row member
  rcases mem_updateWhere_cases member with ⟨old, _⟩ | ⟨old, inTable, chosen, rfl⟩
  · exact within row old
  · exact changed old inTable chosen

theorem exec_rows (keys : Keys db) (rows : Rows db) (call : Call) :
    Rows (exec crate db call) := by
  have grows : ∀ domainId ∈ db.policies.map PolicyRow.domainId,
      domainId ∈ (exec crate db call).policies.map PolicyRow.domainId :=
    fun domainId known => exec_known keys call known
  rcases exec_recorded keys call with same | ⟨domainId, known, capturedAt, recorded⟩
  · refine ⟨same.outbox ▸ rows.domains, same.outbox ▸ rows.ids, ?_, ?_⟩
    · rw [same.outbox, same.nextId]
      exact rows.drawn
    · rw [same.outbox]
      exact fun row member => grows _ (rows.known row member)
  · exact rows.record recorded known grows

/-- A success starts the attempts of its domain's row again. -/
theorem pendIndex_within {rows : List IndexOutboxRow} {id domainId : Uuid} {capturedAt : Time}
    (positive : 0 < maxAttempts)
    (within : ∀ row ∈ rows, row.attemptCount ≤ maxAttempts ∧
      (row.status = .pending ∨ row.status = .retry → row.attemptCount < maxAttempts)) :
    ∀ row ∈ pendIndex rows id domainId capturedAt, row.attemptCount ≤ maxAttempts ∧
      (row.status = .pending ∨ row.status = .retry → row.attemptCount < maxAttempts) := by
  intro row member
  unfold pendIndex at member
  split at member
  · rcases mem_updateWhere_cases member with ⟨old, _⟩ | ⟨old, _, _, rfl⟩
    · exact within row old
    · exact ⟨Nat.zero_le maxAttempts, fun _ => positive⟩
  · rcases List.mem_append.mp member with old | new
    · exact within row old
    · rw [List.mem_singleton.mp new]
      exact ⟨Nat.zero_le maxAttempts, fun _ => positive⟩

theorem exec_within (keys : Keys db) (positive : 0 < maxAttempts)
    (within : WithinLimit maxAttempts db) (call : Call) :
    WithinLimit maxAttempts (exec crate db call) := by
  have written : SameRecords db (exec crate db call) ∨ _ := exec_recorded keys call
  rcases written with same | ⟨_, _, _, recorded⟩
  · rw [WithinLimit, same.outbox]
    exact within
  · rw [WithinLimit, recorded.outbox]
    exact pendIndex_within positive within

theorem claimReady_budgeted {now : Time} {lease : Duration} {limit : Nat}
    (budget : Budgeted maxAttempts s.db)
    (below : ∀ row ∈ readyRows s.db.indexOutbox now lease limit, row.attemptCount < maxAttempts) :
    Budgeted maxAttempts (s.claimReady now lease limit).db := by
  unfold Indexing.claimReady Store.claimReady
  dsimp only
  split
  · exact budget
  · refine ⟨budget.keys.of_same rfl rfl, budget.rows.update (fun _ => rfl) fun _ => rfl, ?_⟩
    apply budget.within.update
    intro row member selected
    obtain ⟨found, inReady, same⟩ := List.any_eq_true.mp selected
    have sameRow : found = row :=
      eq_of_key_eq budget.rows.ids (readyRows_mem inReady) member (by simpa using same)
    have bound := below found inReady
    rw [sameRow] at bound
    refine ⟨bound, ?_⟩
    intro waiting
    rcases waiting with pending | retry
    · cases pending
    · cases retry

theorem complete_budgeted (budget : Budgeted maxAttempts s.db) (place : Nat) :
    Budgeted maxAttempts (s.complete place).db := by
  unfold Indexing.complete
  split
  · rename_i job claim document found
    unfold Store.complete
    by_cases held : s.db.indexOutbox.any (IndexOutboxRow.isHeldBy job) = true
    · rw [if_pos held]
      have sub : (s.db.indexOutbox.filter fun row => !row.isHeldBy job).Sublist s.db.indexOutbox :=
        List.filter_sublist
      refine ⟨budget.keys.of_same rfl rfl, ?_, ?_⟩
      · exact ⟨budget.rows.domains.sublist (sub.map _), budget.rows.ids.sublist (sub.map _),
          fun row member => budget.rows.drawn row (sub.subset member),
          fun row member => budget.rows.known row (sub.subset member)⟩
      · intro row member
        exact budget.within row (sub.subset member)
    · rw [if_neg held]
      exact budget
  · exact budget

theorem release_db (place : Nat) (writer : Writer) (inFlight : Option Document) :
    (s.release place writer inFlight).db = s.db := by
  cases inFlight <;> rfl

theorem fail_budgeted (budget : Budgeted maxAttempts s.db) {place : Nat} {now : Time}
    {retryAfter : Duration} {limit : Nat} {summary : Text}
    (timely : Timely maxAttempts s (.fail place now retryAfter limit summary)) :
    Budgeted maxAttempts (s.fail place now retryAfter limit summary).db := by
  obtain ⟨rfl, current⟩ := timely
  unfold Indexing.fail
  split
  · rename_i job claim inFlight found
    unfold Store.fail
    dsimp only
    by_cases held : s.db.indexOutbox.any (IndexOutboxRow.isHeldBy job) = true
    · rw [if_pos held]
      dsimp only
      rw [release_db]
      refine ⟨budget.keys.of_same rfl rfl, budget.rows.update (fun _ => rfl) fun _ => rfl, ?_⟩
      apply budget.within.update
      intro row member own
      refine ⟨(budget.within row member).1, ?_⟩
      intro waiting
      have notDead : ¬ limit ≤ job.attemptCount := by
        intro used
        simp [IndexOutboxRow.failedTo, if_pos used] at waiting
      have room : ¬ limit ≤ row.attemptCount := fun used =>
        notDead (current _ found row member own used)
      exact Nat.lt_of_not_le room
    · rw [if_neg held]
      dsimp only
      rw [release_db]
      exact budget
  · exact budget

/-- Between its claim and its report an indexer writes nothing to the store. -/
theorem step_db_loading (action : Action)
    (quiet : match action with
      | .store _ | .claimReady .. | .complete _ | .fail .. => False
      | _ => True) : (s.step crate collation action).db = s.db := by
  cases action <;> simp only at quiet
  case loadDomain place =>
    unfold Indexing.step Indexing.loadDomain
    dsimp only
    split
    · split <;> rfl
    · rfl
  case loadTechnologies place =>
    unfold Indexing.step Indexing.loadTechnologies
    dsimp only
    split <;> rfl
  case failLoad place =>
    unfold Indexing.step Indexing.failLoad
    dsimp only
    split <;> rfl
  case land place =>
    unfold Indexing.step Indexing.land
    dsimp only
    split <;> rfl
  case respond place =>
    unfold Indexing.step Indexing.respond
    dsimp only
    split <;> rfl
  case failUpsert place =>
    unfold Indexing.step Indexing.failUpsert
    dsimp only
    split <;> rfl
  case stop place =>
    unfold Indexing.step Indexing.stop
    dsimp only
    split
    · rfl
    · exact release_db _ _ _
    · rfl
    · rfl
    · rfl

theorem step_budgeted (positive : 0 < maxAttempts) (s : Indexing) (action : Action)
    (timely : Timely maxAttempts s action) (budget : Budgeted maxAttempts s.db) :
    Budgeted maxAttempts (s.step crate collation action).db := by
  cases action with
  | store call =>
      exact ⟨exec_keys crate s.db call budget.keys, exec_rows budget.keys budget.rows call,
        exec_within budget.keys positive budget.within call⟩
  | claimReady now lease limit =>
      exact claimReady_budgeted budget (ready_below budget.within timely)
  | complete place => exact complete_budgeted budget place
  | fail place now retryAfter limit summary => exact fail_budgeted budget timely
  | _ =>
      rw [step_db_loading _ trivial]
      exact budget

end Steps

theorem initial_budgeted (maxAttempts : Nat) (catalogue : Catalogue) :
    Budgeted maxAttempts (Indexing.initial catalogue).db where
  keys := initial_keys catalogue
  rows := (initial_sound catalogue).rows
  within := by
    intro row member
    cases member

theorem guarded_honored {actions : List Action} (positive : 0 < maxAttempts)
    (narrow : maxAttempts < 256) (budget : Budgeted maxAttempts s.db)
    (timely : Guarded (fun s action => s.step crate collation action) (Timely maxAttempts) s
      actions) :
    Guarded (fun s action => s.step crate collation action) (Honored maxAttempts) s actions := by
  induction actions generalizing s with
  | nil => trivial
  | cons action rest ih =>
      obtain ⟨now, later⟩ := timely
      refine ⟨?_, ih (step_budgeted positive s action now budget) later⟩
      cases action with
      | claimReady now lease limit =>
          exact honored_of_below narrow (ready_below budget.within now)
      | _ => trivial

/-- In every run in which no lease expires on a row whose attempts are used up,
and no overtaken failure is reported for one, every claim returns all the rows it
marked, each within the limit. In every state, for a statement that succeeds,
that holds exactly if no row it takes has used up its attempts. -/
theorem index_attempts_bounded (crate : UrlCrate) (collation : Collation) (catalogue : Catalogue)
    (maxAttempts : Nat) (positive : 0 < maxAttempts) (narrow : maxAttempts < 256)
    (actions : List Action) :
    let step := fun (s : Indexing) action => s.step crate collation action
    (Guarded step (Timely maxAttempts) (Indexing.initial catalogue) actions →
      Guarded step (Honored maxAttempts) (Indexing.initial catalogue) actions) ∧
    ∀ now lease limit, limit < 2 ^ 63 →
      let s := run step (Indexing.initial catalogue) actions
      (∀ row ∈ readyRows s.db.indexOutbox now lease limit, row.attemptCount + 1 < 2 ^ 15) →
      (Honored maxAttempts s (.claimReady now lease limit) ↔
        ∀ row ∈ readyRows s.db.indexOutbox now lease limit, row.attemptCount < maxAttempts) := by
  intro step
  constructor
  · intro timely
    exact guarded_honored positive narrow (initial_budgeted maxAttempts catalogue) timely
  · intro now lease limit small s room
    exact honored_claim_iff narrow small room

/-- One crawl and the indexers that take its job and crash, a lease apart. -/
def crashingIndexers (count : Nat) : List Action :=
  [.store (.createWithAudit 1 exampleDomain DomainCreationDefaults.crawlPolicy
    "operator".toList 0)] ++ plainCrawl 10 0 ++
    (List.range count).flatMap fun (round : Nat) => [.claimReady (60 * round + 1) 60 10, .stop 0]

/-- Under the default limit of five attempts, five claims are honored. -/
theorem fifthClaim_honored :
    Guarded (fun s action => s.step plainUrlCrate codePoints action) (Honored 5)
      (Indexing.initial Catalogue.empty) (crashingIndexers 5) :=
  (index_attempts_bounded plainUrlCrate codePoints Catalogue.empty 5 (by decide) (by decide) _).1
    (by decide +kernel)

/-- The sixth claim of a job that always loses its lease is its sixth attempt. -/
theorem sixthClaim_over_limit :
    let s := run (fun s action => s.step plainUrlCrate codePoints action)
      (Indexing.initial Catalogue.empty) (crashingIndexers 5)
    ((Store.claimReady s.db 301 60 10).2.2.toOption.getD []).map SearchIndexJob.attemptCount = [6] ∧
      ¬ Honored 5 s (.claimReady 301 60 10) := by
  decide +kernel

end TechAtlas.Search
