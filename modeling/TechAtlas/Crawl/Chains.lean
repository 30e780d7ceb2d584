import TechAtlas.Crawl.Recovery

set_option autoImplicit false

/- The attempts of one correlation id form a chain. Only its last attempt can be
open or retried, so numbers go up by one and each retry is queued after the
attempt it repeats. -/
namespace TechAtlas.Crawl

open Library Store

variable {crate : UrlCrate} {db next : Database} {retry : AttemptRow → AttemptRow → Prop}

section Definitions

/-- The columns that place an attempt in its chain, which no statement updates. -/
structure ChainPlace where
  id : Uuid
  domainId : Uuid
  jobId : Uuid
  correlationId : Uuid
  attemptNumber : Nat
  queuedAt : Time

def chainPlace (attempt : AttemptRow) : ChainPlace where
  id := attempt.id
  domainId := attempt.domainId
  jobId := attempt.jobId
  correlationId := attempt.correlationId
  attemptNumber := attempt.attemptNumber
  queuedAt := attempt.queuedAt

def chainKey (attempt : AttemptRow) : Uuid × Nat :=
  (attempt.correlationId, attempt.attemptNumber)

/-- Chains whose neighbours are related. -/
structure Chains (retry : AttemptRow → AttemptRow → Prop) (db : Database) : Prop where
  keyed : (db.attempts.map chainKey).Nodup
  sameDomain : ∀ a ∈ db.attempts, ∀ b ∈ db.attempts, a.correlationId = b.correlationId →
    a.domainId = b.domainId
  superseded : ∀ a ∈ db.attempts, ∀ b ∈ db.attempts, a.correlationId = b.correlationId →
    a.attemptNumber < b.attemptNumber → a.status = .failed ∧ a.queuedAt < b.queuedAt
  closed : ∀ a ∈ db.attempts, ∀ number, 0 < number → number ≤ a.attemptNumber →
    ∃ b ∈ db.attempts, b.correlationId = a.correlationId ∧ b.attemptNumber = number
  retried : ∀ a ∈ db.attempts, ∀ b ∈ db.attempts, a.correlationId = b.correlationId →
    b.attemptNumber = a.attemptNumber + 1 → retry a b
  posted : ∀ a ∈ db.attempts, ∃ row ∈ db.outbox, row.crawlAttemptId = a.id ∧
    row.availableAt = a.queuedAt

/-- What a transaction does to the chains, one attempt at a time. -/
inductive ChainStep (retry : AttemptRow → AttemptRow → Prop) (db next : Database) : Prop
  | amend (places : next.attempts.map chainPlace = db.attempts.map chainPlace)
      (ended : ∀ attempt ∈ db.attempts, attempt.status = .failed → attempt ∈ next.attempts)
      (postings : next.outbox.map OutboxRow.posting = db.outbox.map OutboxRow.posting)
  | first (row : AttemptRow) (post : OutboxRow)
      (attempts : next.attempts = db.attempts ++ [row]) (outbox : next.outbox = db.outbox ++ [post])
      (posted : post.crawlAttemptId = row.id ∧ post.availableAt = row.queuedAt)
      (number : row.attemptNumber = 1)
      (unused : ∀ old ∈ db.attempts, old.correlationId ≠ row.correlationId)
  | again (attempt row : AttemptRow) (post : OutboxRow)
      (attempts : next.attempts = db.attempts ++ [row]) (outbox : next.outbox = db.outbox ++ [post])
      (posted : post.crawlAttemptId = row.id ∧ post.availableAt = row.queuedAt)
      (member : attempt ∈ db.attempts) (failed : attempt.status = .failed)
      (last : ∀ old ∈ db.attempts, old.correlationId = attempt.correlationId →
        old.attemptNumber ≤ attempt.attemptNumber)
      (same : row.correlationId = attempt.correlationId ∧ row.domainId = attempt.domainId)
      (number : row.attemptNumber = attempt.attemptNumber + 1)
      (later : attempt.queuedAt < row.queuedAt) (related : retry attempt row)

end Definitions

section Steps

theorem Chains.eq_of_key (chains : Chains retry db) {a b : AttemptRow} (inA : a ∈ db.attempts)
    (inB : b ∈ db.attempts) (same : a.correlationId = b.correlationId)
    (number : a.attemptNumber = b.attemptNumber) : a = b :=
  eq_of_key_eq chains.keyed inA inB (Prod.ext same number)

/-- A row of the table after an update and the row it was before. -/
theorem exists_place {attempt : AttemptRow} (places : next.attempts.map chainPlace =
    db.attempts.map chainPlace) (member : attempt ∈ next.attempts) :
    ∃ old ∈ db.attempts, chainPlace old = chainPlace attempt := by
  have inMap : chainPlace attempt ∈ next.attempts.map chainPlace :=
    List.mem_map.mpr ⟨attempt, member, rfl⟩
  rw [places] at inMap
  exact List.mem_map.mp inMap

theorem Chains.amend (chains : Chains retry db)
    (stable : ∀ a b b', chainPlace b = chainPlace b' → retry a b → retry a b')
    (places : next.attempts.map chainPlace = db.attempts.map chainPlace)
    (ended : ∀ attempt ∈ db.attempts, attempt.status = .failed → attempt ∈ next.attempts)
    (postings : next.outbox.map OutboxRow.posting = db.outbox.map OutboxRow.posting) :
    Chains retry next := by
  have sameKeys : next.attempts.map chainKey = db.attempts.map chainKey := by
    have columns := congrArg
      (List.map fun place : ChainPlace => (place.correlationId, place.attemptNumber)) places
    rw [List.map_map, List.map_map] at columns
    exact columns
  have keyed : (next.attempts.map chainKey).Nodup := by
    rw [sameKeys]
    exact chains.keyed
  -- an attempt that has a successor is the row it was
  have kept : ∀ a ∈ next.attempts, ∀ old ∈ db.attempts, chainPlace old = chainPlace a →
      old.status = .failed → old = a := by
    intro a member old inTable same failed
    apply eq_of_key_eq keyed (ended old inTable failed) member
    exact Prod.ext (congrArg ChainPlace.correlationId same) (congrArg ChainPlace.attemptNumber same)
  constructor
  · exact keyed
  · intro a inA b inB same
    obtain ⟨oldA, tableA, placeA⟩ := exists_place places inA
    obtain ⟨oldB, tableB, placeB⟩ := exists_place places inB
    simp only [chainPlace, ChainPlace.mk.injEq] at placeA placeB
    have domains := chains.sameDomain oldA tableA oldB tableB (by simp [placeA, placeB, same])
    rw [placeA.2.1, placeB.2.1] at domains
    exact domains
  · intro a inA b inB same less
    obtain ⟨oldA, tableA, placeA⟩ := exists_place places inA
    obtain ⟨oldB, tableB, placeB⟩ := exists_place places inB
    have keptA := kept a inA oldA tableA placeA
    simp only [chainPlace, ChainPlace.mk.injEq] at placeA placeB
    obtain ⟨failed, later⟩ := chains.superseded oldA tableA oldB tableB
      (by simp [placeA, placeB, same]) (by simp [placeA, placeB, less])
    rw [← keptA failed, ← placeB.2.2.2.2.2]
    exact ⟨failed, later⟩
  · intro a inA number positive small
    obtain ⟨oldA, tableA, placeA⟩ := exists_place places inA
    simp only [chainPlace, ChainPlace.mk.injEq] at placeA
    obtain ⟨oldB, tableB, sameB, numberB⟩ :=
      chains.closed oldA tableA number positive (by rw [placeA.2.2.2.2.1]; exact small)
    obtain ⟨b, inB, placeB⟩ := exists_place places.symm tableB
    simp only [chainPlace, ChainPlace.mk.injEq] at placeB
    exact ⟨b, inB, by simp [placeB, sameB, placeA], by simp [placeB, numberB]⟩
  · intro a inA b inB same successor
    obtain ⟨oldA, tableA, placeA⟩ := exists_place places inA
    obtain ⟨oldB, tableB, placeB⟩ := exists_place places inB
    have keptA := kept a inA oldA tableA placeA
    have move := stable oldA oldB b placeB
    simp only [chainPlace, ChainPlace.mk.injEq] at placeA placeB
    have sameOld : oldA.correlationId = oldB.correlationId := by simp [placeA, placeB, same]
    have nextOld : oldB.attemptNumber = oldA.attemptNumber + 1 := by
      simp [placeA, placeB, successor]
    have failed := (chains.superseded oldA tableA oldB tableB sameOld (by omega)).1
    rw [← keptA failed]
    exact move (chains.retried oldA tableA oldB tableB sameOld nextOld)
  · intro a inA
    obtain ⟨oldA, tableA, placeA⟩ := exists_place places inA
    simp only [chainPlace, ChainPlace.mk.injEq] at placeA
    obtain ⟨old, inOutbox, sameId, available⟩ := chains.posted oldA tableA
    have inMap : old.posting ∈ next.outbox.map OutboxRow.posting := by
      rw [postings]
      exact List.mem_map.mpr ⟨old, inOutbox, rfl⟩
    obtain ⟨row, inNext, same⟩ := List.mem_map.mp inMap
    simp only [OutboxRow.posting, Posting.mk.injEq] at same
    exact ⟨row, inNext, by simp [same, sameId, placeA], by simp [same, available, placeA]⟩

/-- A chain gets its next attempt: its first, or one after the last. -/
theorem Chains.enqueue {row : AttemptRow} {post : OutboxRow} (chains : Chains retry db)
    (attempts : next.attempts = db.attempts ++ [row]) (outbox : next.outbox = db.outbox ++ [post])
    (posted : post.crawlAttemptId = row.id ∧ post.availableAt = row.queuedAt)
    (owner : ∀ a ∈ db.attempts, a.correlationId = row.correlationId → a.domainId = row.domainId)
    (greatest : ∀ a ∈ db.attempts, a.correlationId = row.correlationId →
      a.attemptNumber < row.attemptNumber ∧ a.status = .failed ∧ a.queuedAt < row.queuedAt)
    (below : ∀ number, 0 < number → number < row.attemptNumber →
      ∃ b ∈ db.attempts, b.correlationId = row.correlationId ∧ b.attemptNumber = number)
    (related : ∀ a ∈ db.attempts, a.correlationId = row.correlationId →
      row.attemptNumber = a.attemptNumber + 1 → retry a row) : Chains retry next := by
  have cases : ∀ a ∈ next.attempts, a ∈ db.attempts ∨ a = row := by
    intro a member
    rw [attempts] at member
    simpa using member
  have inNext : ∀ a ∈ db.attempts, a ∈ next.attempts := by
    intro a member
    rw [attempts]
    exact List.mem_append_left _ member
  have rowIn : row ∈ next.attempts := by
    rw [attempts]
    exact List.mem_append_right _ (List.mem_singleton.mpr rfl)
  constructor
  · rw [attempts]
    apply nodup_map_concat chains.keyed
    intro old member same
    have less := (greatest old member (congrArg Prod.fst same)).1
    have equal : old.attemptNumber = row.attemptNumber := congrArg Prod.snd same
    omega
  · intro a inA b inB same
    rcases cases a inA with oldA | rfl <;> rcases cases b inB with oldB | rfl
    · exact chains.sameDomain a oldA b oldB same
    · exact owner a oldA same
    · exact (owner b oldB same.symm).symm
    · rfl
  · intro a inA b inB same less
    rcases cases a inA with oldA | rfl <;> rcases cases b inB with oldB | rfl
    · exact chains.superseded a oldA b oldB same less
    · exact (greatest a oldA same).2
    · have greater := (greatest b oldB same.symm).1
      omega
    · omega
  · intro a inA number positive small
    rcases cases a inA with oldA | rfl
    · obtain ⟨b, oldB, sameB, numberB⟩ := chains.closed a oldA number positive small
      exact ⟨b, inNext b oldB, sameB, numberB⟩
    · by_cases here : number = a.attemptNumber
      · exact ⟨a, rowIn, rfl, here.symm⟩
      · obtain ⟨b, oldB, sameB, numberB⟩ := below number positive (by omega)
        exact ⟨b, inNext b oldB, sameB, numberB⟩
  · intro a inA b inB same successor
    rcases cases a inA with oldA | rfl <;> rcases cases b inB with oldB | rfl
    · exact chains.retried a oldA b oldB same successor
    · exact related a oldA same successor
    · have greater := (greatest b oldB same.symm).1
      omega
    · omega
  · intro a inA
    rw [outbox]
    rcases cases a inA with oldA | rfl
    · obtain ⟨old, inOutbox, found⟩ := chains.posted a oldA
      exact ⟨old, List.mem_append_left _ inOutbox, found⟩
    · exact ⟨post, List.mem_append_right _ (List.mem_singleton.mpr rfl), posted⟩

theorem chainStep_chains (stable : ∀ a b b', chainPlace b = chainPlace b' → retry a b → retry a b')
    (step : ChainStep retry db next) (chains : Chains retry db) : Chains retry next := by
  cases step with
  | amend places ended postings => exact chains.amend stable places ended postings
  | first row post attempts outbox posted number unused =>
      refine chains.enqueue attempts outbox posted ?_ ?_ ?_ ?_
      · intro a member same
        exact absurd same (unused a member)
      · intro a member same
        exact absurd same (unused a member)
      · intro number positive less
        omega
      · intro a member same
        exact absurd same (unused a member)
  | again attempt row post attempts outbox posted member failed last same number later related =>
      -- the attempt is the last of its chain, all others come before it
      have before : ∀ a ∈ db.attempts, a.correlationId = attempt.correlationId →
          a = attempt ∨ a.attemptNumber < attempt.attemptNumber := by
        intro a inA sameA
        rcases Nat.lt_or_eq_of_le (last a inA sameA) with less | equal
        · exact Or.inr less
        · exact Or.inl (chains.eq_of_key inA member sameA equal)
      refine chains.enqueue attempts outbox posted ?_ ?_ ?_ ?_
      · intro a inA sameA
        rw [same.2]
        exact chains.sameDomain a inA attempt member (sameA.trans same.1)
      · intro a inA sameA
        rcases before a inA (sameA.trans same.1) with rfl | less
        · exact ⟨by omega, failed, later⟩
        · obtain ⟨ended, earlier⟩ :=
            chains.superseded a inA attempt member (sameA.trans same.1) less
          exact ⟨by omega, ended, lt_trans earlier later⟩
      · intro wanted positive less
        rw [same.1]
        exact chains.closed attempt member wanted positive (by omega)
      · intro a inA sameA successor
        rcases before a inA (sameA.trans same.1) with rfl | less
        · exact related
        · omega

end Steps

section Calls

/-- An update of an open attempt that leaves its place in the chain. -/
theorem chainStep_update {id : Uuid} {change : AttemptRow → AttemptRow}
    (attempts : next.attempts = updateWhere (fun row => row.id == id) change db.attempts)
    (outbox : next.outbox = db.outbox)
    (unresolved : ∀ row ∈ db.attempts, row.id = id → row.status.isTerminal = false)
    (keeps : ∀ row, chainPlace (change row) = chainPlace row) : ChainStep retry db next := by
  refine ChainStep.amend ?_ ?_ (by rw [outbox])
  · rw [attempts]
    exact updateWhere_map chainPlace keeps db.attempts
  · intro attempt member failed
    rw [attempts]
    apply mem_updateWhere_of_not member
    rw [beq_eq_false_iff_ne]
    intro same
    have stillOpen := unresolved attempt member same
    rw [failed] at stillOpen
    cases stillOpen

/-- The attempt in flight is the last of its chain. -/
theorem Chains.last_of_open (chains : Chains retry db) {attempt : AttemptRow}
    (member : attempt ∈ db.attempts) (unresolved : attempt.status.isTerminal = false) :
    ∀ old ∈ db.attempts, old.correlationId = attempt.correlationId →
      old.attemptNumber ≤ attempt.attemptNumber := by
  intro old inTable same
  by_contra greater
  have failed := (chains.superseded attempt member old inTable same.symm (by omega)).1
  rw [failed] at unresolved
  cases unresolved

/-- The identifiers `reserve_due` draws for the chains it starts: none drawn
before, none drawn twice. -/
structure FreshChains (db : Database) (fresh : Uuid → FreshJob) (domainIds : List Uuid) :
    Prop where
  unused : ∀ domainId ∈ domainIds, ∀ attempt ∈ db.attempts,
    attempt.correlationId ≠ (fresh domainId).correlationId
  apart : ∀ left ∈ domainIds, ∀ right ∈ domainIds,
    (fresh left).correlationId = (fresh right).correlationId → left = right

instance (db : Database) (fresh : Uuid → FreshJob) (domainIds : List Uuid) :
    Decidable (FreshChains db fresh domainIds) :=
  decidable_of_iff
    ((∀ domainId ∈ domainIds, ∀ attempt ∈ db.attempts,
        attempt.correlationId ≠ (fresh domainId).correlationId) ∧
      ∀ left ∈ domainIds, ∀ right ∈ domainIds,
        (fresh left).correlationId = (fresh right).correlationId → left = right)
    ⟨fun both => ⟨both.1, both.2⟩, fun drawn => ⟨drawn.unused, drawn.apart⟩⟩

theorem reserveDomains_chainSteps {now : Time} {fresh : Uuid → FreshJob} {domainIds : List Uuid}
    {jobs : List CrawlJobV1} (distinct : domainIds.Nodup) (drawn : FreshChains db fresh domainIds)
    (success : reserveDomains now fresh db domainIds = .ok (next, jobs)) :
    Relation.ReflTransGen (ChainStep retry) db next := by
  induction domainIds generalizing db jobs with
  | nil =>
      simp only [reserveDomains, Except.ok.injEq, Prod.mk.injEq] at success
      rw [← success.1]
  | cons domainId rest ih =>
      simp only [reserveDomains, bind_eq_ok] at success
      obtain ⟨⟨mid, job⟩, reserved, ⟨last, more⟩, remaining, same⟩ := success
      cases same
      obtain ⟨freshRest, distinctRest⟩ := List.nodup_cons.mp distinct
      obtain ⟨_, _, rfl⟩ := reserveDomain_eq_ok reserved
      refine Relation.ReflTransGen.head (ChainStep.first _ _ rfl rfl ⟨rfl, rfl⟩ rfl
        (drawn.unused domainId List.mem_cons_self)) (ih distinctRest ?_ remaining)
      constructor
      · intro other inRest attempt member
        rcases List.mem_append.mp member with old | new
        · exact drawn.unused other (List.mem_cons_of_mem domainId inRest) attempt old
        · rw [List.mem_singleton.mp new]
          intro collision
          have equal := drawn.apart domainId List.mem_cons_self other
            (List.mem_cons_of_mem domainId inRest) collision
          exact freshRest (equal ▸ inRest)
      · intro left inLeft right inRight
        exact drawn.apart left (List.mem_cons_of_mem domainId inLeft) right
          (List.mem_cons_of_mem domainId inRight)

theorem reserveDue_chainSteps (keys : Keys db) {now : Time} {limit : Nat} {fresh : Uuid → FreshJob}
    {jobs : List CrawlJobV1} (drawn : FreshChains db fresh (dueDomains db now limit))
    (success : reserveDue db now limit fresh = .ok (next, jobs)) :
    Relation.ReflTransGen (ChainStep retry) db next := by
  unfold reserveDue at success
  split at success
  · simp only [Except.ok.injEq, Prod.mk.injEq] at success
    rw [← success.1]
  · split at success
    · cases success
    · exact reserveDomains_chainSteps (dueDomains_nodup keys.policyKeys) drawn success

/-- The retries of a failure report: queued with the delay of the attempt. -/
def RetriesReport (retry : AttemptRow → AttemptRow → Prop) (report : FailureReport) : Prop :=
  ∀ (attempt row : AttemptRow) (delay : Duration),
    0 < attempt.attemptNumber → attempt.attemptNumber < 256 →
    attempt.attemptNumber ≤ report.settings.maxCrawlRetries.toNat →
    report.settings.crawlRetryDelay (UInt8.ofNat attempt.attemptNumber) = some delay →
    row.queuedAt = report.now + delay → retry (attempt.failedAt report.now report.failure) row

theorem failedAt_queued {attempt : AttemptRow} {now : Time} {failure : CrawlFailure}
    (valid : (attempt.failedAt now failure).valid = true) : attempt.queuedAt ≤ now := by
  simp only [AttemptRow.valid, AttemptRow.failedAt, AttemptRow.finishValid, notBefore,
    Bool.and_eq_true, decide_eq_true_eq] at valid
  obtain ⟨⟨⟨⟨⟨_, _⟩, queued⟩, finished⟩, _⟩, _⟩ := valid
  have started : attempt.startedAt.getD now ≤ now := by simpa using finished
  exact le_trans (of_decide_eq_true queued) started

/-- A failed attempt ends its chain or is repeated after the delay. -/
theorem recordFailed_chainSteps {attempt : AttemptRow} {report : FailureReport}
    (valid : RowsValid db) (chains : Chains retry db) (member : attempt ∈ db.attempts)
    (related : RetriesReport retry report)
    (success : recordFailed db attempt report.failure report.now report.settings report.fresh =
      .ok next) : Relation.ReflTransGen (ChainStep retry) db next := by
  obtain ⟨checked, fits, retried | ⟨_, rfl⟩⟩ := recordFailed_eq_ok success
  · obtain ⟨delay, retryAt, few, waits, added, _, _, rfl⟩ := retried
    obtain ⟨unresolved, validEnd⟩ := checked attempt member rfl
    have positive := attemptNumber_pos valid member
    have due : retryAt = report.now + delay := checkedAdd_eq_some added
    have wait : 0 < delay := by
      have value := (crawlRetryDelay_eq_some positive fits few).mp waits
      rw [value.2.2]
      exact Nat.mul_pos report.settings.crawlRetryBase_pos (Nat.two_pow_pos _)
    have last := chains.last_of_open member unresolved
    -- the store between the two statements: the attempt has failed, nothing is queued yet
    let between : Database := { db with
      attempts := updateWhere (fun row => row.id == attempt.id)
        (AttemptRow.failedAt report.now report.failure) db.attempts }
    have failing : ChainStep retry db between :=
      chainStep_update rfl rfl (fun row inTable same => (checked row inTable same).1) fun _ => rfl
    have ended : attempt.failedAt report.now report.failure ∈ between.attempts :=
      mem_updateWhere_of_selected member (beq_self_eq_true _)
    refine Relation.ReflTransGen.tail (Relation.ReflTransGen.single failing) ?_
    refine ChainStep.again _ _ _ rfl rfl ⟨rfl, rfl⟩ ended rfl ?_ ⟨rfl, rfl⟩ rfl ?_ ?_
    · intro old inBetween same
      rcases mem_updateWhere_cases inBetween with ⟨inTable, _⟩ | ⟨before, inTable, _, rfl⟩
      · exact last old inTable same
      · exact last before inTable same
    · change attempt.queuedAt < retryAt
      have queued := failedAt_queued validEnd
      have advanced : report.now < report.now + (delay : Int) :=
        lt_add_of_pos_right _ (Int.natCast_pos.mpr wait)
      rw [due]
      exact lt_of_le_of_lt queued advanced
    · exact related attempt _ delay positive fits few waits due
  · refine Relation.ReflTransGen.single ?_
    exact chainStep_update rfl rfl (fun row inTable same => (checked row inTable same).1) fun _ => rfl

/-- A manual retry of the last attempt of its domain. -/
theorem retryTerminalAttempt_chainSteps {jobId : Uuid} {actorSubject : Text} {now : Time}
    {fresh : FreshJob} (chains : Chains retry db) (related : ∀ a b, retry a b)
    (latest : ∀ attempt ∈ db.attempts, attempt.jobId = jobId →
      db.hasLaterAttempt attempt = false ∧ attempt.queuedAt < now)
    (success : retryTerminalAttempt db jobId actorSubject now fresh = .ok next) :
    ChainStep retry db next := by
  obtain ⟨attempt, member, _, _, _, sameJob, failed, _, _, _, _, rfl⟩ :=
    retryTerminalAttempt_eq_ok success
  obtain ⟨alone, later⟩ := latest attempt member sameJob
  refine ChainStep.again attempt _ _ rfl rfl ⟨rfl, rfl⟩ member failed ?_ ⟨rfl, rfl⟩ rfl later
    (related _ _)
  intro old inTable same
  by_contra greater
  have before := (chains.superseded attempt member old inTable same.symm (by omega)).2
  have owner := chains.sameDomain old inTable attempt member same
  rw [Database.hasLaterAttempt, List.any_eq_false] at alone
  apply alone old inTable
  simp [owner, before]

/-- What keeps the chains in order: reservations draw correlation ids of their
own, and a manual retry comes after the last attempt of its domain. -/
def orderly (db : Database) : Call → Prop
  | .reserveDue now limit fresh => FreshChains db fresh (dueDomains db now limit)
  | .retryTerminalAttempt jobId _ now _ => ∀ attempt ∈ db.attempts, attempt.jobId = jobId →
      db.hasLaterAttempt attempt = false ∧ attempt.queuedAt < now
  | _ => True

instance (db : Database) (call : Call) : Decidable (orderly db call) :=
  match call with
  | .reserveDue now limit fresh =>
      inferInstanceAs (Decidable (FreshChains db fresh (dueDomains db now limit)))
  | .retryTerminalAttempt jobId _ now _ =>
      inferInstanceAs (Decidable (∀ attempt ∈ db.attempts, attempt.jobId = jobId →
        db.hasLaterAttempt attempt = false ∧ attempt.queuedAt < now))
  | .createWithAudit .. | .importCsv .. | .markPublished .. | .recordPublishFailure ..
  | .claimAttempt .. | .recordSuccess .. | .recordFailure .. | .recordAttemptOutcome ..
  | .requestDomainCrawl .. | .requestRefresh .. | .scheduleCountryEnrichmentRecrawl ..
  | .scheduleImportBatchRecrawl .. | .updatePolicy .. => isTrue trivial

def Call.isManualRetry : Call → Bool
  | .retryTerminalAttempt .. => true
  | _ => false

theorem exec_chainSteps (crate : UrlCrate) {call : Call} (keys : Keys db) (valid : RowsValid db)
    (chains : Chains retry db) (ordered : orderly db call)
    (reported : ∀ report ∈ call.failureReport, RetriesReport retry report)
    (manual : Call.isManualRetry call = true → ∀ a b, retry a b) :
    Relation.ReflTransGen (ChainStep retry) db (exec crate db call) := by
  cases exec_work crate db call with
  | adjust adjustments =>
      obtain ⟨attempts, outbox⟩ := adjustments.queue
      apply Relation.ReflTransGen.single
      exact ChainStep.amend (by rw [attempts]) (fun attempt member _ => by rwa [attempts])
        (by rw [outbox])
  | reserve success => exact reserveDue_chainSteps keys ordered success
  | publish _ same keeps =>
      rw [same]
      apply Relation.ReflTransGen.single
      exact ChainStep.amend rfl (fun attempt member _ => member) (updateWhere_map _ keeps _)
  | claim _ updated =>
      obtain ⟨checked, same⟩ := updateAttempt_eq_some.mp updated
      rw [same]
      apply Relation.ReflTransGen.single
      exact chainStep_update rfl rfl (fun row inTable own => (checked row inTable own).1)
        fun _ => rfl
  | succeed _ success =>
      obtain ⟨unresolved, _, _, _, _, _, same⟩ := persistSuccess_eq_ok success
      rw [same]
      exact Relation.ReflTransGen.single (chainStep_update rfl rfl unresolved fun _ => rfl)
  | bare _ success =>
      obtain ⟨unresolved, same⟩ := recordSucceeded_eq_ok success
      rw [same]
      exact Relation.ReflTransGen.single (chainStep_update rfl rfl unresolved fun _ => rfl)
  | fail report reports member _ success =>
      exact recordFailed_chainSteps valid chains member (reported report reports) success
  | retry success =>
      apply Relation.ReflTransGen.single
      exact retryTerminalAttempt_chainSteps chains (manual rfl) ordered success
  | refresh success =>
      obtain ⟨_, _, _, _, _, same⟩ := requestRefresh_eq_ok success
      rw [same]
      apply Relation.ReflTransGen.single
      exact ChainStep.amend rfl (fun attempt member _ => member) rfl

end Calls

section Runs

theorem initial_chains (catalogue : Catalogue) : Chains retry (Database.initial catalogue) := by
  constructor
  · exact List.nodup_nil
  · intro a member
    cases member
  · intro a member
    cases member
  · intro a member
    cases member
  · intro a member
    cases member
  · intro a member
    cases member

/-- The chains of every run whose calls keep them in order. -/
theorem run_chains (ok : Call → Prop)
    (stable : ∀ a b b', chainPlace b = chainPlace b' → retry a b → retry a b')
    (reported : ∀ call, ok call → ∀ report ∈ call.failureReport, RetriesReport retry report)
    (manual : ∀ call, ok call → Call.isManualRetry call = true → ∀ a b, retry a b)
    (catalogue : Catalogue) (calls : List Call) (allowed : ∀ call ∈ calls, ok call)
    (ordered : Guarded (exec crate) orderly (Database.initial catalogue) calls) :
    Chains retry (reached crate catalogue calls) := by
  have both := ordered.and (guarded_of_forall (exec crate) (Database.initial catalogue) calls allowed)
  have start : Keys (Database.initial catalogue) ∧ RowsValid (Database.initial catalogue) ∧
      Chains retry (Database.initial catalogue) :=
    ⟨initial_keys catalogue, reached_rowsValid crate catalogue [], initial_chains catalogue⟩
  have step : ∀ db call, orderly db call ∧ ok call →
      Keys db ∧ RowsValid db ∧ Chains retry db →
      Keys (exec crate db call) ∧ RowsValid (exec crate db call) ∧
        Chains retry (exec crate db call) := by
    intro db call permitted invariant
    obtain ⟨keys, valid, chains⟩ := invariant
    have kept := exec_rowsValid crate db call ⟨keys, valid⟩
    refine ⟨kept.1, kept.2, ?_⟩
    have steps := exec_chainSteps crate keys valid chains permitted.1
      (reported call permitted.2) (manual call permitted.2)
    generalize exec crate db call = last at steps
    induction steps with
    | refl => exact chains
    | tail _ step ih => exact chainStep_chains stable step ih
  exact (run_invariant_of_guarded step _ calls both start).2.2

end Runs

end TechAtlas.Crawl
