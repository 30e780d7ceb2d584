import TechAtlas.Search.Indexer

set_option autoImplicit false

/- When the search index shows the latest crawl. The outbox row does not know
which claim completes it and the index does not know which claim writes to it;
under the latest claim of a domain both are current. -/
namespace TechAtlas.Search

open Library Store

variable {crate : UrlCrate} {collation : Collation} {db next : Database}

section Definitions

/-- The domain has no outbox row. -/
def Unqueued (db : Database) (domainId : Uuid) : Prop :=
  ∀ row ∈ db.indexOutbox, row.domainId ≠ domainId

instance (db : Database) (domainId : Uuid) : Decidable (Unqueued db domainId) :=
  inferInstanceAs (Decidable (∀ row ∈ db.indexOutbox, _))

/-- A crawled domain without an outbox row is shown as of its last success. -/
def UpToDate (s : Indexing) : Prop :=
  ∀ domainId, Unqueued s.db domainId → 0 < successes s.db domainId →
    ∃ document, s.index domainId = some document ∧
      successes s.db domainId ≤ document.readAfter

/-- The writer holds the latest claim of its domain. -/
def Indexing.isLatest (s : Indexing) (writer : Writer) : Prop :=
  writer.claim = s.claimNumber writer.job.domainId

instance (s : Indexing) (writer : Writer) : Decidable (s.isLatest writer) :=
  inferInstanceAs (Decidable (_ = _))

/-- A write that reaches the index, and a completion that finds the row
processing, are made under the latest claim of the domain. -/
def Fenced (s : Indexing) : Action → Prop
  | .land place => ∀ writer ∈ s.writers[place]?, s.isLatest writer
  | .complete place => ∀ writer ∈ s.writers[place]?,
      s.db.indexOutbox.any (IndexOutboxRow.isHeldBy writer.job) = true → s.isLatest writer
  | _ => True

instance (s : Indexing) : (action : Action) → Decidable (Fenced s action)
  | .land place => inferInstanceAs (Decidable (∀ writer ∈ s.writers[place]?, _))
  | .complete place => inferInstanceAs (Decidable (∀ writer ∈ s.writers[place]?, _))
  | .store .. | .claimReady .. | .loadDomain .. | .loadTechnologies .. | .failLoad ..
  | .respond .. | .failUpsert .. | .fail .. | .stop .. => .isTrue trivial

end Definitions

section Store

/-- No statement archives a domain, and every policy has its domain. -/
structure Housed (db : Database) : Prop where
  active : ∀ domain ∈ db.domains, domain.archivedAt = none
  owned : ∀ domainId ∈ db.policies.map PolicyRow.domainId,
    ∃ domain ∈ db.domains, domain.id = domainId

theorem Housed.of_same (housed : Housed db) (domains : next.domains = db.domains)
    (policies : next.policies.map PolicyRow.domainId = db.policies.map PolicyRow.domainId) :
    Housed next := by
  constructor
  · rw [domains]
    exact housed.active
  · rw [domains, policies]
    exact housed.owned

theorem move_housed {names : Text → Prop} (move : Move names db next) (housed : Housed db) : Housed next := by
  cases move with
  | reserve _ _ success =>
      obtain ⟨_, _, rfl⟩ := reserveDomain_eq_ok success
      exact housed.of_same rfl (updateWhere_map _ (fun _ => by rfl) _)
  | claim _ success =>
      obtain ⟨_, rfl⟩ := updateAttempt_eq_some.mp success
      exact housed.of_same rfl rfl
  | retry success =>
      obtain ⟨_, _, _, _, _, _, _, _, _, _, _, rfl⟩ := retryTerminalAttempt_eq_ok success
      exact housed.of_same rfl (updateWhere_map _ (fun _ => by rfl) _)
  | reschedule keeps same =>
      refine housed.of_same same.domains ?_
      rw [same.policies]
      exact updateWhere_map _ keeps.domainId _
  | @register domain policy _ _ _ active _ _ same =>
      constructor
      · rw [same.domains]
        intro row member
        rcases List.mem_append.mp member with old | new
        · exact housed.active row old
        · rw [List.mem_singleton.mp new]
          exact active.2
      · rw [same.domains, same.policies]
        intro domainId member
        rw [List.map_append, List.mem_append] at member
        rcases member with old | new
        · obtain ⟨row, inTable, same⟩ := housed.owned domainId old
          exact ⟨row, List.mem_append_left _ inTable, same⟩
        · refine ⟨domain, List.mem_append_right _ (List.mem_singleton.mpr rfl), ?_⟩
          rw [List.map_singleton, List.mem_singleton] at new
          rw [active.1, new]

theorem resolution_housed {records : SuccessfulCrawlRecord → Prop} {bare : Bool}
    (resolution : Resolution records db bare next)
    (housed : Housed db) : Housed next := by
  cases resolution with
  | succeed _ _ success =>
      obtain ⟨_, _, _, _, _, _, rfl⟩ := persistSuccess_eq_ok success
      exact housed.of_same rfl (updateWhere_map _ (fun _ => by rfl) _)
  | bare _ success =>
      obtain ⟨_, rfl⟩ := recordSucceeded_eq_ok success
      exact housed.of_same rfl (updateWhere_map _ (fun _ => by rfl) _)
  | fail _ success =>
      obtain ⟨_, ⟨_, _, _, _, rfl⟩ | ⟨_, rfl⟩⟩ := recordFailed_cases success <;>
        exact housed.of_same rfl (updateWhere_map _ (fun _ => by rfl) _)

theorem exec_housed (keys : Keys db) (housed : Housed db) (call : Call) :
    Housed (exec crate db call) :=
  And.right (exec_invariant (fun _ _ move _ => move_housed move)
    (fun _ _ _ resolution _ => resolution_housed resolution)
    (fun _ _ housed => ⟨housed.active, housed.owned⟩) db call ⟨keys, housed⟩)

/-- A domain with a policy has a projection. -/
theorem projectedDomain_isSome (housed : Housed db) {domainId : Uuid}
    (known : domainId ∈ db.policies.map PolicyRow.domainId) :
    ∃ domain, projectedDomain db domainId = some domain := by
  obtain ⟨owner, inDomains, sameId⟩ := housed.owned domainId known
  obtain ⟨policy, inPolicies, samePolicy⟩ := List.mem_map.mp known
  obtain ⟨row, found⟩ : ∃ row, db.domainOf domainId = some row := by
    rw [← Option.isSome_iff_exists, Database.domainOf, List.find?_isSome]
    exact ⟨owner, inDomains, by simpa using sameId⟩
  obtain ⟨joined, foundPolicy⟩ : ∃ joined, db.policyOf domainId = some joined := by
    rw [← Option.isSome_iff_exists, Database.policyOf, List.find?_isSome]
    exact ⟨policy, inPolicies, by simpa using samePolicy⟩
  have active : row.isActive = true := by
    rw [DomainRow.isActive, housed.active row (find?_eq_some_mem found).1]
    rfl
  simp [projectedDomain, found, foundPolicy, active]

/-- What `record_success` leaves for the indexer. -/
structure Recorded (db next : Database) (domainId : Uuid) (capturedAt : Time) : Prop where
  outbox : next.indexOutbox = pendIndex db.indexOutbox db.nextIndexId domainId capturedAt
  nextId : next.nextIndexId = db.nextIndexId + 1
  snapshots : ∃ row, row.domainId = domainId ∧ next.snapshots = db.snapshots ++ [row]

/-- A call leaves the indexer's tables alone, or it is a success of one domain. -/
theorem exec_recorded (keys : Keys db) (call : Call) :
    SameRecords db (exec crate db call) ∨
      ∃ domainId ∈ db.policies.map PolicyRow.domainId, ∃ capturedAt,
        Recorded db (exec crate db call) domainId capturedAt := by
  rcases exec_records keys.policyKeys call with same | ⟨attempt, member, record, fresh, _, success⟩
  · exact Or.inl same
  · obtain ⟨_, _, _, _, _, _, next⟩ := persistSuccess_eq_ok success
    rw [next]
    exact Or.inr ⟨_, keys.known _ member, _, rfl, rfl, _, rfl, rfl⟩

theorem successes_of_same (same : SameRecords db next) (domainId : Uuid) :
    successes next domainId = successes db domainId := by
  rw [Search.successes, same.snapshots, Search.successes]

theorem Recorded.successes {domainId : Uuid} {capturedAt : Time}
    (recorded : Recorded db next domainId capturedAt) {other : Uuid} (different : other ≠ domainId) :
    successes next other = successes db other := by
  obtain ⟨row, same, snapshots⟩ := recorded.snapshots
  rw [Search.successes, snapshots, List.countP_append, List.countP_singleton, same, Search.successes]
  simp [different.symm]

/-- The rows after a success: the domain's is pending, the others are as before. -/
theorem mem_pendIndex {rows : List IndexOutboxRow} {id domainId : Uuid} {capturedAt : Time}
    {row : IndexOutboxRow} (member : row ∈ pendIndex rows id domainId capturedAt) :
    (row ∈ rows ∧ row.domainId ≠ domainId) ∨
      (row.domainId = domainId ∧ row.status = .pending ∧
        ((∃ old ∈ rows, old.domainId = domainId ∧ old.id = row.id) ∨ row.id = id)) := by
  unfold pendIndex at member
  split at member
  · rcases mem_updateWhere_cases member with ⟨old, other⟩ | ⟨old, inTable, selected, rfl⟩
    · exact Or.inl ⟨old, by simpa using other⟩
    · have same : old.domainId = domainId := by simpa using selected
      exact Or.inr ⟨same, rfl, Or.inl ⟨old, inTable, same, rfl⟩⟩
  · rename_i absent
    rcases List.mem_append.mp member with old | new
    · refine Or.inl ⟨old, ?_⟩
      intro same
      exact absent (List.any_eq_true.mpr ⟨row, old, by simpa using same⟩)
    · rw [List.mem_singleton.mp new]
      exact Or.inr ⟨rfl, rfl, Or.inr rfl⟩

theorem pendIndex_keeps {rows : List IndexOutboxRow} {id domainId : Uuid} {capturedAt : Time}
    {row : IndexOutboxRow} (member : row ∈ rows) :
    ∃ later ∈ pendIndex rows id domainId capturedAt, later.domainId = row.domainId := by
  unfold pendIndex
  split
  · by_cases chosen : row.domainId = domainId
    · exact ⟨_, mem_updateWhere_of_selected member (by simpa using chosen), rfl⟩
    · exact ⟨row, mem_updateWhere_of_not member (by simpa using chosen), rfl⟩
  · exact ⟨row, List.mem_append_left _ member, rfl⟩

theorem pendIndex_queues (rows : List IndexOutboxRow) (id domainId : Uuid) (capturedAt : Time) :
    ∃ row ∈ pendIndex rows id domainId capturedAt, row.domainId = domainId := by
  unfold pendIndex
  split
  · rename_i present
    obtain ⟨row, member, same⟩ := List.any_eq_true.mp present
    refine ⟨_, mem_updateWhere_of_selected member same, ?_⟩
    simpa [IndexOutboxRow.repended] using same
  · exact ⟨_, List.mem_append_right _ (List.mem_singleton.mpr rfl), rfl⟩

end Store

section Invariant

/-- The outbox table: one row for a domain, identifiers never drawn twice. -/
structure Rows (db : Database) : Prop where
  domains : (db.indexOutbox.map IndexOutboxRow.domainId).Nodup
  ids : (db.indexOutbox.map IndexOutboxRow.id).Nodup
  drawn : ∀ row ∈ db.indexOutbox, row.id < db.nextIndexId
  known : ∀ row ∈ db.indexOutbox, row.domainId ∈ db.policies.map PolicyRow.domainId

/-- A writer's job names a row of its own domain, under a claim already made. -/
structure WriterSound (s : Indexing) (writer : Writer) : Prop where
  drawn : writer.job.id < s.db.nextIndexId
  row : ∀ row ∈ s.db.indexOutbox, row.id = writer.job.id → row.domainId = writer.job.domainId
  made : writer.claim ≤ s.claimNumber writer.job.domainId
  known : writer.job.domainId ∈ s.db.policies.map PolicyRow.domainId
  projected : writer.phase ≠ .indexed none
  -- no success since the latest claim, as long as the row is processing
  current : s.isLatest writer → ∀ row ∈ s.db.indexOutbox,
    row.domainId = writer.job.domainId → row.status = .processing →
    ∀ readAfter ∈ writer.phase.readAfter, readAfter = successes s.db writer.job.domainId
  -- what the latest claim has written is what the index shows
  shown : s.isLatest writer → ∀ document,
    writer.phase = .written document ∨ writer.phase = .indexed (some document) →
    s.index writer.job.domainId = some document
  queued : s.isLatest writer → ¬Unqueued s.db writer.job.domainId

structure Sound (s : Indexing) : Prop where
  keys : Keys s.db
  housed : Housed s.db
  rows : Rows s.db
  writers : ∀ writer ∈ s.writers, WriterSound s writer
  unique : (s.writers.map Writer.key).Nodup
  upToDate : UpToDate s

variable {s t : Indexing} {writer : Writer}

/-- A writer that a step leaves as it is. Only the holder of the latest claim
needs more than its bookkeeping. -/
theorem WriterSound.transfer (sound : WriterSound s writer)
    (nextId : s.db.nextIndexId ≤ t.db.nextIndexId)
    (made : s.claimNumber writer.job.domainId ≤ t.claimNumber writer.job.domainId)
    (known : writer.job.domainId ∈ t.db.policies.map PolicyRow.domainId)
    (origin : ∀ row ∈ t.db.indexOutbox, s.db.nextIndexId ≤ row.id ∨
      ∃ old ∈ s.db.indexOutbox, old.id = row.id ∧ old.domainId = row.domainId)
    (latest : t.isLatest writer → s.isLatest writer ∧
      t.index writer.job.domainId = s.index writer.job.domainId ∧
      (¬Unqueued s.db writer.job.domainId → ¬Unqueued t.db writer.job.domainId) ∧
      ∀ row ∈ t.db.indexOutbox, row.domainId = writer.job.domainId → row.status = .processing →
        (∃ old ∈ s.db.indexOutbox, old.domainId = writer.job.domainId ∧
          old.status = .processing) ∧
        successes t.db writer.job.domainId = successes s.db writer.job.domainId) :
    WriterSound t writer where
  drawn := Nat.lt_of_lt_of_le sound.drawn nextId
  row := by
    intro row member sameId
    rcases origin row member with new | ⟨old, inTable, oldId, oldDomain⟩
    · have below : writer.job.id < row.id := Nat.lt_of_lt_of_le sound.drawn new
      rw [sameId] at below
      exact absurd below (Nat.lt_irrefl _)
    · rw [← oldDomain]
      exact sound.row old inTable (oldId.trans sameId)
  made := Nat.le_trans sound.made made
  known := known
  projected := sound.projected
  current := by
    intro isLatest row member same processing
    obtain ⟨before, _, _, rows⟩ := latest isLatest
    obtain ⟨⟨old, inTable, oldDomain, oldStatus⟩, sameCount⟩ := rows row member same processing
    rw [sameCount]
    exact sound.current before old inTable oldDomain oldStatus
  shown := by
    intro isLatest document phase
    obtain ⟨before, sameIndex, _, _⟩ := latest isLatest
    rw [sameIndex]
    exact sound.shown before document phase
  queued := by
    intro isLatest
    obtain ⟨before, _, stays, _⟩ := latest isLatest
    exact stays (sound.queued before)

/-- The indexer moves a writer on without touching the store or the index. -/
theorem Sound.rephase (sound : Sound s) {place : Nat}
    (found : s.writers[place]? = some writer) {phase : Phase} (projected : phase ≠ .indexed none)
    (read : ∀ readAfter ∈ phase.readAfter, readAfter ∈ writer.phase.readAfter ∨
      readAfter = successes s.db writer.job.domainId)
    (wrote : ∀ document, phase = .written document ∨ phase = .indexed (some document) →
      writer.phase = .written document ∨ writer.phase = .indexed (some document)) :
    Sound (s.setPhase place writer phase) := by
  have before := sound.writers writer (List.mem_of_getElem? found)
  refine ⟨sound.keys, sound.housed, sound.rows, ?_, ?_, sound.upToDate⟩
  · intro other member
    rcases List.mem_or_eq_of_mem_set member with old | rfl
    · have kept := sound.writers other old
      exact ⟨kept.drawn, kept.row, kept.made, kept.known, kept.projected, kept.current, kept.shown,
        kept.queued⟩
    · refine ⟨before.drawn, before.row, before.made, before.known, projected, ?_, ?_,
        before.queued⟩
      · intro isLatest row inTable same processing readAfter inPhase
        rcases read readAfter inPhase with old | now
        · exact before.current isLatest row inTable same processing readAfter old
        · exact now
      · intro isLatest document written
        exact before.shown isLatest document (wrote document written)
  · have sameKeys : ((s.setPhase place writer phase).writers.map Writer.key) =
        s.writers.map Writer.key := by
      have sameKey : (s.writers.map Writer.key)[place]? = some writer.key := by
        rw [List.getElem?_map, found]
        rfl
      obtain ⟨inside, same⟩ := List.getElem?_eq_some_iff.mp sameKey
      have unchanged : ({ writer with phase := phase } : Writer).key = writer.key := rfl
      simp only [Indexing.setPhase, List.map_set, unchanged]
      rw [← same, List.set_getElem_self]
    rw [sameKeys]
    exact sound.unique

theorem Sound.drop (sound : Sound s) (place : Nat) : Sound (s.drop place) := by
  refine ⟨sound.keys, sound.housed, sound.rows, ?_, ?_, sound.upToDate⟩
  · intro other member
    have kept := sound.writers other (List.mem_of_mem_eraseIdx member)
    exact ⟨kept.drawn, kept.row, kept.made, kept.known, kept.projected, kept.current, kept.shown,
      kept.queued⟩
  · exact sound.unique.sublist ((List.eraseIdx_sublist _ _).map _)

end Invariant

section Steps

variable {s : Indexing} {writer : Writer}

/-- A write under the latest claim: no other writer of the domain holds it. -/
theorem Sound.write (sound : Sound s) {place : Nat} {document : Document} {phase : Phase}
    (found : s.writers[place]? = some writer) (isLatest : s.isLatest writer)
    (projected : phase ≠ .indexed none)
    (read : ∀ readAfter ∈ phase.readAfter, readAfter ∈ writer.phase.readAfter)
    (wrote : ∀ shown, phase = .written shown ∨ phase = .indexed (some shown) →
      shown = document) :
    Sound ((s.write writer.job.domainId document).setPhase place writer phase) := by
  have before := sound.writers writer (List.mem_of_getElem? found)
  have rephased : Sound (s.setPhase place writer .claimed) :=
    sound.rephase found (by simp) (by simp [Phase.readAfter]) (by simp)
  have sameKeys : ((s.write writer.job.domainId document).setPhase place writer phase).writers.map
      Writer.key = (s.setPhase place writer .claimed).writers.map Writer.key := by
    simp only [Indexing.setPhase, Indexing.write, List.map_set]
    rfl
  have unique := sameKeys ▸ rephased.unique
  have inside : place < s.writers.length := (List.getElem?_eq_some_iff.mp found).1
  refine ⟨sound.keys, sound.housed, sound.rows, ?_, unique, ?_⟩
  · intro other member
    by_cases same : other = { writer with phase := phase }
    · subst same
      refine ⟨before.drawn, before.row, before.made, before.known, projected, ?_, ?_,
        before.queued⟩
      · intro _ row inTable sameDomain processing readAfter inPhase
        exact before.current isLatest row inTable sameDomain processing readAfter
          (read readAfter inPhase)
      · intro _ shown written
        rw [wrote shown written]
        exact Function.update_self ..
    · have old : other ∈ s.writers := (List.mem_or_eq_of_mem_set member).resolve_right same
      have kept := sound.writers other old
      refine kept.transfer (Nat.le_refl _) (Nat.le_refl _) kept.known
        (fun row inTable => Or.inr ⟨row, inTable, rfl, rfl⟩) ?_
      intro otherLatest
      refine ⟨otherLatest, ?_, id, fun row inTable sameDomain processing =>
        ⟨⟨row, inTable, sameDomain, processing⟩, rfl⟩⟩
      apply Function.update_of_ne
      intro sameDomain
      -- two latest claims of one domain are one claim
      apply same
      refine eq_of_key_eq unique member (List.mem_set inside _) ?_
      have sameClaim : other.claim = writer.claim := by
        rw [otherLatest, isLatest]
        exact congrArg s.claimNumber sameDomain
      exact Prod.ext sameDomain sameClaim
  · intro domainId unqueued crawled
    have different : domainId ≠ writer.job.domainId := by
      rintro rfl
      exact before.queued isLatest unqueued
    obtain ⟨shown, inIndex, current⟩ := sound.upToDate domainId unqueued crawled
    exact ⟨shown, (Function.update_of_ne different ..).trans inIndex, current⟩

theorem land_sound (sound : Sound s) (place : Nat) (fenced : Fenced s (.land place)) :
    Sound (s.land place) := by
  unfold Indexing.land
  split
  · rename_i job claim document found
    exact sound.write found (fenced _ found) (by simp) (by simp [Phase.readAfter]) (by simp)
  · rename_i job claim document found
    exact sound.write found (fenced _ found) (by simp) (by simp [Phase.readAfter]) (by simp)
  · rename_i job claim document found
    have written : Sound ((s.write job.domainId document).setPhase place
        ⟨job, claim, .gone document⟩ .claimed) :=
      sound.write found (fenced _ found) (by simp) (by simp [Phase.readAfter]) (by simp)
    have dropped := written.drop place
    simpa [Indexing.drop, Indexing.setPhase, List.eraseIdx_set_eq] using dropped
  · exact sound

theorem loadDomain_sound (sound : Sound s) (place : Nat) : Sound (s.loadDomain place) := by
  unfold Indexing.loadDomain
  split
  · rename_i job claim found
    have known := (sound.writers _ (List.mem_of_getElem? found)).known
    obtain ⟨domain, projected⟩ := projectedDomain_isSome sound.housed known
    rw [projected]
    exact sound.rephase found (by simp) (by simp [Phase.readAfter]) (by simp)
  · exact sound

theorem loadTechnologies_sound (sound : Sound s) (place : Nat) :
    Sound (s.loadTechnologies collation place) := by
  unfold Indexing.loadTechnologies
  split
  · rename_i job claim domain readAfter found
    exact sound.rephase found (by simp) (by simp [Phase.readAfter]) (by simp)
  · exact sound

theorem failLoad_sound (sound : Sound s) (place : Nat) : Sound (s.failLoad place) := by
  unfold Indexing.failLoad
  split
  · rename_i job claim found
    exact sound.rephase found (by simp) (by simp [Phase.readAfter]) (by simp)
  · rename_i job claim domain readAfter found
    exact sound.rephase found (by simp) (by simp [Phase.readAfter]) (by simp)
  · exact sound

theorem respond_sound (sound : Sound s) (place : Nat) : Sound (s.respond place) := by
  unfold Indexing.respond
  split
  · rename_i job claim document found
    exact sound.rephase found (by simp) (by simp [Phase.readAfter]) (by simp)
  · exact sound

theorem failUpsert_sound (sound : Sound s) (place : Nat) : Sound (s.failUpsert place) := by
  unfold Indexing.failUpsert
  split
  · rename_i job claim document found
    exact sound.rephase found (by simp) (by simp [Phase.readAfter]) (by simp)
  · rename_i job claim document found
    exact sound.rephase found (by simp) (by simp [Phase.readAfter]) (by simp)
  · exact sound

theorem release_sound (sound : Sound s) {place : Nat} {inFlight : Option Document}
    (found : s.writers[place]? = some writer)
    (read : inFlight.map Document.readAfter = writer.phase.readAfter) :
    Sound (s.release place writer inFlight) := by
  unfold Indexing.release
  split
  · refine sound.rephase found (by simp) ?_ (by simp)
    intro readAfter inPhase
    rw [← read]
    exact Or.inl inPhase
  · exact sound.drop place

theorem stop_sound (sound : Sound s) (place : Nat) : Sound (s.stop place) := by
  unfold Indexing.stop
  split
  · rename_i job claim document found
    exact release_sound sound found rfl
  · rename_i job claim inFlight found
    exact release_sound sound found rfl
  · exact sound
  · exact sound.drop place
  · exact sound

theorem fail_outbox {job : SearchIndexJob} {now : Time} {retryAfter : Duration} {maxAttempts : Nat}
    {summary : Text} (success : Store.fail db job now retryAfter maxAttempts summary = .ok next) :
    ∃ change : IndexOutboxRow → IndexOutboxRow,
      (∀ row, (change row).id = row.id) ∧ (∀ row, (change row).domainId = row.domainId) ∧
      (∀ row, (change row).status ≠ .processing) ∧
      next = { db with
        indexOutbox := updateWhere (IndexOutboxRow.isHeldBy job) change db.indexOutbox } := by
  unfold Store.fail at success
  dsimp only at success
  split at success
  · cases success
    refine ⟨_, fun _ => by rfl, fun _ => by rfl, ?_, rfl⟩
    intro row
    simp only [IndexOutboxRow.failedTo]
    split <;> simp
  · cases success

theorem unqueued_updateWhere {selected : IndexOutboxRow → Bool}
    {change : IndexOutboxRow → IndexOutboxRow} (rows : List IndexOutboxRow)
    (keepsDomain : ∀ row, (change row).domainId = row.domainId) (domainId : Uuid) :
    (∀ row ∈ updateWhere selected change rows, row.domainId ≠ domainId) ↔
      ∀ row ∈ rows, row.domainId ≠ domainId := by
  have asMap : ∀ rows : List IndexOutboxRow, (∀ row ∈ rows, row.domainId ≠ domainId) ↔
      domainId ∉ rows.map IndexOutboxRow.domainId := by
    intro rows
    simp [eq_comm]
  rw [asMap, asMap, updateWhere_map IndexOutboxRow.domainId keepsDomain]

theorem Rows.update (rows : Rows db) {selected : IndexOutboxRow → Bool}
    {change : IndexOutboxRow → IndexOutboxRow} (keepsId : ∀ row, (change row).id = row.id)
    (keepsDomain : ∀ row, (change row).domainId = row.domainId) :
    Rows { db with indexOutbox := updateWhere selected change db.indexOutbox } := by
  refine ⟨?_, ?_, ?_, ?_⟩
  · rw [updateWhere_map IndexOutboxRow.domainId keepsDomain]
    exact rows.domains
  · rw [updateWhere_map IndexOutboxRow.id keepsId]
    exact rows.ids
  · intro row member
    rcases mem_updateWhere_cases member with ⟨old, _⟩ | ⟨old, inTable, _, rfl⟩
    · exact rows.drawn row old
    · rw [keepsId]
      exact rows.drawn old inTable
  · intro row member
    rcases mem_updateWhere_cases member with ⟨old, _⟩ | ⟨old, inTable, _, rfl⟩
    · exact rows.known row old
    · rw [keepsDomain]
      exact rows.known old inTable

/-- A row that an indexer fails stays in the table and is no longer processing. -/
theorem Sound.failRow (sound : Sound s) {selected : IndexOutboxRow → Bool}
    {change : IndexOutboxRow → IndexOutboxRow} (keepsId : ∀ row, (change row).id = row.id)
    (keepsDomain : ∀ row, (change row).domainId = row.domainId)
    (idle : ∀ row, (change row).status ≠ .processing) :
    Sound { s with db := { s.db with
      indexOutbox := updateWhere selected change s.db.indexOutbox } } := by
  have unqueued : ∀ domainId, (∀ row ∈ updateWhere selected change s.db.indexOutbox,
      row.domainId ≠ domainId) ↔ Unqueued s.db domainId :=
    unqueued_updateWhere s.db.indexOutbox keepsDomain
  refine ⟨sound.keys.of_same rfl rfl, sound.housed.of_same rfl rfl,
    sound.rows.update keepsId keepsDomain, ?_, sound.unique, ?_⟩
  · intro other member
    have kept := sound.writers other member
    refine kept.transfer (Nat.le_refl _) (Nat.le_refl _) kept.known ?_ ?_
    · intro row inTable
      rcases mem_updateWhere_cases inTable with ⟨old, _⟩ | ⟨old, inOld, _, rfl⟩
      · exact Or.inr ⟨row, old, rfl, rfl⟩
      · exact Or.inr ⟨old, inOld, (keepsId old).symm, (keepsDomain old).symm⟩
    · intro isLatest
      refine ⟨isLatest, rfl, fun queued empty => queued ((unqueued _).mp empty), ?_⟩
      intro row inTable sameDomain processing
      rcases mem_updateWhere_cases inTable with ⟨old, _⟩ | ⟨old, _, _, rfl⟩
      · exact ⟨⟨row, old, sameDomain, processing⟩, rfl⟩
      · exact absurd processing (idle old)
  · intro domainId empty crawled
    exact sound.upToDate domainId ((unqueued domainId).mp empty) crawled

theorem fail_sound (sound : Sound s) (place : Nat) (now : Time) (retryAfter : Duration)
    (maxAttempts : Nat) (summary : Text) :
    Sound (s.fail place now retryAfter maxAttempts summary) := by
  unfold Indexing.fail
  split
  · rename_i job claim inFlight found
    cases failed : Store.fail s.db job now retryAfter maxAttempts summary with
    | error reason => exact release_sound sound found rfl
    | ok next =>
        obtain ⟨change, keepsId, keepsDomain, idle, rfl⟩ := fail_outbox failed
        exact release_sound (sound.failRow keepsId keepsDomain idle) found rfl
  · exact sound

/-- The row the holder of the latest claim completes: the index shows what was
read after the last success. -/
theorem complete_sound (sound : Sound s) (place : Nat) (fenced : Fenced s (.complete place)) :
    Sound (s.complete place) := by
  unfold Indexing.complete
  split
  · rename_i job claim document found
    unfold Store.complete
    by_cases held : s.db.indexOutbox.any (IndexOutboxRow.isHeldBy job) = true
    · rw [if_pos held]
      have isLatest := fenced _ found held
      have writer := sound.writers _ (List.mem_of_getElem? found)
      have removed : ∀ row ∈ s.db.indexOutbox, row.isHeldBy job = true →
          row.domainId = job.domainId := by
        intro row member isHeld
        simp only [IndexOutboxRow.isHeldBy, Bool.and_eq_true, beq_iff_eq] at isHeld
        exact writer.row row member isHeld.1
      have remains : ∀ row ∈ s.db.indexOutbox, row.domainId ≠ job.domainId →
          row ∈ s.db.indexOutbox.filter fun row => !row.isHeldBy job := by
        intro row member other
        rw [List.mem_filter, Bool.not_eq_true']
        refine ⟨member, ?_⟩
        rw [Bool.eq_false_iff]
        exact fun isHeld => other (removed row member isHeld)
      have sub := List.filter_sublist (p := fun row => !row.isHeldBy job) (l := s.db.indexOutbox)
      refine ⟨sound.keys.of_same rfl rfl, sound.housed.of_same rfl rfl, ?_, ?_, ?_, ?_⟩
      · exact ⟨sound.rows.domains.sublist (sub.map _), sound.rows.ids.sublist (sub.map _),
          fun row member => sound.rows.drawn row (List.mem_of_mem_filter member),
          fun row member => sound.rows.known row (List.mem_of_mem_filter member)⟩
      · intro other member
        have kept := sound.writers other (List.mem_of_mem_eraseIdx member)
        refine kept.transfer (Nat.le_refl _) (Nat.le_refl _) kept.known
          (fun row inTable => Or.inr ⟨row, List.mem_of_mem_filter inTable, rfl, rfl⟩) ?_
        intro otherLatest
        refine ⟨otherLatest, rfl, ?_, fun row inTable sameDomain processing =>
          ⟨⟨row, List.mem_of_mem_filter inTable, sameDomain, processing⟩, rfl⟩⟩
        have different : other.job.domainId ≠ job.domainId := by
          intro sameDomain
          refine key_ne_of_mem_eraseIdx sound.unique found member (Prod.ext sameDomain ?_)
          exact otherLatest.trans ((congrArg s.claimNumber sameDomain).trans isLatest.symm)
        intro queued empty
        apply queued
        intro row inTable sameDomain
        exact empty row (remains row inTable (sameDomain ▸ different)) sameDomain
      · exact sound.unique.sublist ((List.eraseIdx_sublist _ _).map _)
      · intro domainId empty crawled
        by_cases same : domainId = job.domainId
        · subst same
          obtain ⟨row, inTable, isHeld⟩ := List.any_eq_true.mp held
          have sameDomain := removed row inTable isHeld
          simp only [IndexOutboxRow.isHeldBy, Bool.and_eq_true, beq_iff_eq] at isHeld
          cases document with
          | none => exact absurd rfl writer.projected
          | some document =>
              have current := writer.current isLatest row inTable sameDomain isHeld.2
                document.readAfter rfl
              exact ⟨document, writer.shown isLatest document (Or.inr rfl), Nat.le_of_eq current.symm⟩
        · refine sound.upToDate domainId ?_ crawled
          intro row inTable sameDomain
          exact empty row (remains row inTable (sameDomain ▸ same)) sameDomain
    · rw [if_neg held]
      exact sound.drop place
  · exact sound

/-- The claims of a batch: each claimed domain starts a new claim, so no earlier
writer of it is the latest. -/
theorem Sound.claimRows (sound : Sound s) (now : Time) {ready : List IndexOutboxRow}
    (listed : ∀ row ∈ ready, row ∈ s.db.indexOutbox)
    (distinct : (ready.map IndexOutboxRow.domainId).Nodup) {jobs : List SearchIndexJob}
    (fromRows : List.Sublist jobs ((ready.map (IndexOutboxRow.claimedFor now)).map
      IndexOutboxRow.job))
    {claimNumber : Uuid → Nat}
    (claimed : ∀ row ∈ ready, claimNumber row.domainId = s.claimNumber row.domainId + 1)
    (others : ∀ domainId, (∀ row ∈ ready, row.domainId ≠ domainId) →
      claimNumber domainId = s.claimNumber domainId) :
    Sound { s with
      db := { s.db with
        indexOutbox := updateWhere (fun row => ready.any fun found => found.id == row.id)
          (IndexOutboxRow.claimedFor now) s.db.indexOutbox }
      claimNumber := claimNumber
      writers := s.writers ++ jobs.map fun job => ⟨job, claimNumber job.domainId, .claimed⟩ } := by
  have unqueued : ∀ domainId, (∀ row ∈ updateWhere
      (fun row => ready.any fun found => found.id == row.id)
      (IndexOutboxRow.claimedFor now) s.db.indexOutbox, row.domainId ≠ domainId) ↔
      Unqueued s.db domainId := unqueued_updateWhere s.db.indexOutbox fun _ => rfl
  have selected : ∀ row ∈ s.db.indexOutbox,
      (ready.any fun found => found.id == row.id) = true → row ∈ ready := by
    intro row member chosen
    obtain ⟨found, inReady, sameId⟩ := List.any_eq_true.mp chosen
    have same := eq_of_key_eq sound.rows.ids (listed found inReady) member (by simpa using sameId)
    rw [← same]
    exact inReady
  have grows : ∀ domainId, s.claimNumber domainId ≤ claimNumber domainId := by
    intro domainId
    by_cases present : ∃ row ∈ ready, row.domainId = domainId
    · obtain ⟨row, inReady, rfl⟩ := present
      rw [claimed row inReady]
      exact Nat.le_succ _
    · rw [others domainId fun row inReady same => present ⟨row, inReady, same⟩]
  have jobOf : ∀ job ∈ jobs, ∃ row ∈ ready, job.id = row.id ∧ job.domainId = row.domainId := by
    intro job member
    obtain ⟨row, inClaimed, rfl⟩ := List.mem_map.mp (fromRows.subset member)
    obtain ⟨old, inReady, rfl⟩ := List.mem_map.mp inClaimed
    exact ⟨old, inReady, rfl, rfl⟩
  refine ⟨sound.keys.of_same rfl rfl, sound.housed.of_same rfl rfl,
    sound.rows.update (fun _ => rfl) (fun _ => rfl), ?_, ?_, ?_⟩
  · intro other member
    rcases List.mem_append.mp member with old | new
    · have kept := sound.writers other old
      refine kept.transfer (Nat.le_refl _) (grows _) kept.known ?_ ?_
      · intro row inTable
        rcases mem_updateWhere_cases inTable with ⟨old, _⟩ | ⟨old, inOld, _, rfl⟩
        · exact Or.inr ⟨row, old, rfl, rfl⟩
        · exact Or.inr ⟨old, inOld, rfl, rfl⟩
      · intro isLatest
        have untouched : ∀ row ∈ ready, row.domainId ≠ other.job.domainId := by
          intro row inReady same
          have made := kept.made
          have latest : other.claim = claimNumber other.job.domainId := isLatest
          rw [← same, claimed row inReady, same] at latest
          omega
        refine ⟨isLatest.trans (others _ untouched), rfl,
          fun queued empty => queued ((unqueued _).mp empty), ?_⟩
        intro row inTable sameDomain processing
        rcases mem_updateWhere_cases inTable with ⟨old, _⟩ | ⟨old, inOld, chosen, rfl⟩
        · exact ⟨⟨row, old, sameDomain, processing⟩, rfl⟩
        · exact absurd sameDomain (untouched old (selected old inOld chosen))
    · obtain ⟨job, inJobs, rfl⟩ := List.mem_map.mp new
      obtain ⟨row, inReady, sameId, sameDomain⟩ := jobOf job inJobs
      have inTable := listed row inReady
      refine ⟨?_, ?_, Nat.le_refl _, ?_, by simp, by simp [Phase.readAfter], by simp, ?_⟩
      · rw [sameId]
        exact sound.rows.drawn row inTable
      · intro other member same
        rcases mem_updateWhere_cases member with ⟨old, _⟩ | ⟨old, inOld, _, rfl⟩
        · rw [eq_of_key_eq sound.rows.ids old inTable (same.trans sameId), sameDomain]
        · have equal := eq_of_key_eq sound.rows.ids inOld inTable (same.trans sameId)
          rw [equal, sameDomain]
          rfl
      · rw [sameDomain]
        exact sound.rows.known row inTable
      · intro _ empty
        exact (unqueued job.domainId).mp empty row inTable sameDomain.symm
  · rw [List.map_append, List.nodup_append]
    refine ⟨sound.unique, ?_, ?_⟩
    · apply List.Nodup.of_map Prod.fst
      have domains : ((jobs.map fun job => (⟨job, claimNumber job.domainId, .claimed⟩ : Writer)).map
          Writer.key).map Prod.fst = jobs.map SearchIndexJob.domainId := by
        simp [Writer.key, Function.comp_def]
      rw [domains]
      refine List.Nodup.sublist (fromRows.map _) ?_
      simpa [Function.comp_def, IndexOutboxRow.job, IndexOutboxRow.claimedFor] using distinct
    · intro key old other new same
      subst same
      obtain ⟨writer, inWriters, rfl⟩ := List.mem_map.mp old
      obtain ⟨started, inNew, sameKey⟩ := List.mem_map.mp new
      obtain ⟨job, inJobs, rfl⟩ := List.mem_map.mp inNew
      obtain ⟨row, inReady, _, sameDomain⟩ := jobOf job inJobs
      have made := (sound.writers writer inWriters).made
      obtain ⟨sameJobDomain, sameClaim⟩ := Prod.mk.inj sameKey
      dsimp only at sameJobDomain sameClaim
      rw [← sameClaim, ← sameJobDomain, sameDomain, claimed row inReady] at made
      omega
  · intro domainId empty crawled
    exact sound.upToDate domainId ((unqueued domainId).mp empty) crawled

theorem readyRows_mem {rows : List IndexOutboxRow} {now : Time} {lease : Duration} {limit : Nat}
    {row : IndexOutboxRow} (member : row ∈ readyRows rows now lease limit) : row ∈ rows := by
  have sorted := List.mem_of_mem_take member
  rw [List.mem_insertionSort] at sorted
  exact List.mem_of_mem_filter sorted

theorem readyRows_nodup {rows : List IndexOutboxRow} {now : Time} {lease : Duration} {limit : Nat}
    (distinct : (rows.map IndexOutboxRow.domainId).Nodup) :
    ((readyRows rows now lease limit).map IndexOutboxRow.domainId).Nodup := by
  have sorted := List.perm_insertionSort
    (fun left right : IndexOutboxRow => left.claimedBefore right)
    (rows.filter (IndexOutboxRow.isReady now lease))
  have filtered : ((rows.filter (IndexOutboxRow.isReady now lease)).map
      IndexOutboxRow.domainId).Nodup := distinct.sublist (List.filter_sublist.map _)
  have whole := (sorted.map IndexOutboxRow.domainId).nodup_iff.mpr filtered
  exact whole.sublist ((List.take_sublist limit _).map _)

theorem claimReady_sound (sound : Sound s) (now : Time) (lease : Duration) (limit : Nat) :
    Sound (s.claimReady now lease limit) := by
  unfold Indexing.claimReady Store.claimReady
  dsimp only
  split
  · simpa using sound
  · have listed : ∀ row ∈ readyRows s.db.indexOutbox now lease limit, row ∈ s.db.indexOutbox :=
      fun row member => readyRows_mem member
    refine sound.claimRows now listed (readyRows_nodup sound.rows.domains) ?_ ?_ ?_
    · split <;> rename_i decoded
      · split at decoded
        · cases decoded
          exact List.Sublist.refl _
        · cases decoded
      · exact List.nil_sublist _
    · intro row member
      rw [if_pos]
      rw [List.any_map, List.any_eq_true]
      exact ⟨row, member, by simp [IndexOutboxRow.claimedFor]⟩
    · intro domainId untouched
      rw [if_neg]
      rw [List.any_map, List.any_eq_true]
      rintro ⟨row, member, same⟩
      exact untouched row member (by simpa [IndexOutboxRow.claimedFor] using same)

theorem Rows.record {domainId : Uuid} {capturedAt : Time} (rows : Rows db)
    (recorded : Recorded db next domainId capturedAt)
    (known : domainId ∈ db.policies.map PolicyRow.domainId)
    (grows : ∀ domainId ∈ db.policies.map PolicyRow.domainId,
      domainId ∈ next.policies.map PolicyRow.domainId) : Rows next := by
  have nodups : ((pendIndex db.indexOutbox db.nextIndexId domainId capturedAt).map
      IndexOutboxRow.domainId).Nodup ∧
      ((pendIndex db.indexOutbox db.nextIndexId domainId capturedAt).map
        IndexOutboxRow.id).Nodup := by
    unfold pendIndex
    split
    · rw [updateWhere_map IndexOutboxRow.domainId fun _ => by rfl,
        updateWhere_map IndexOutboxRow.id fun _ => by rfl]
      exact ⟨rows.domains, rows.ids⟩
    · rename_i absent
      refine ⟨nodup_map_concat rows.domains ?_, nodup_map_concat rows.ids ?_⟩
      · intro old member same
        exact absent (List.any_eq_true.mpr ⟨old, member, by simpa [pendingIndex] using same⟩)
      · intro old member
        exact Nat.ne_of_lt (rows.drawn old member)
  refine ⟨recorded.outbox ▸ nodups.1, recorded.outbox ▸ nodups.2, ?_, ?_⟩
  · intro row member
    rw [recorded.outbox] at member
    rw [recorded.nextId]
    rcases mem_pendIndex member with ⟨old, _⟩ | ⟨_, _, ⟨old, inTable, _, sameId⟩ | new⟩
    · exact Nat.lt_succ_of_lt (rows.drawn row old)
    · rw [← sameId]
      exact Nat.lt_succ_of_lt (rows.drawn old inTable)
    · rw [new]
      exact Nat.lt_succ_self _
  · intro row member
    rw [recorded.outbox] at member
    rcases mem_pendIndex member with ⟨old, _⟩ | ⟨same, _, _⟩
    · exact grows _ (rows.known row old)
    · rw [same]
      exact grows _ known

/-- A domain keeps its policy. -/
theorem exec_known (keys : Keys db) (call : Call) {domainId : Uuid}
    (known : domainId ∈ db.policies.map PolicyRow.domainId) :
    domainId ∈ (exec crate db call).policies.map PolicyRow.domainId := by
  refine And.right (exec_invariant
    (P := fun db => domainId ∈ db.policies.map PolicyRow.domainId) ?_ ?_ ?_ db call ⟨keys, known⟩)
  · intro names before after move _ known
    cases move with
    | reserve _ _ success =>
        obtain ⟨_, _, rfl⟩ := reserveDomain_eq_ok success
        rwa [updateWhere_map _ fun _ => by rfl]
    | claim _ success =>
        obtain ⟨_, rfl⟩ := updateAttempt_eq_some.mp success
        exact known
    | retry success =>
        obtain ⟨_, _, _, _, _, _, _, _, _, _, _, rfl⟩ := retryTerminalAttempt_eq_ok success
        rwa [updateWhere_map _ fun _ => by rfl]
    | reschedule keeps same =>
        rwa [same.policies, updateWhere_map _ keeps.domainId]
    | register _ _ _ _ _ _ same =>
        rw [same.policies, List.map_append]
        exact List.mem_append_left _ known
  · intro records bare before after resolution _ known
    cases resolution with
    | succeed _ _ success =>
        obtain ⟨_, _, _, _, _, _, rfl⟩ := persistSuccess_eq_ok success
        rwa [updateWhere_map _ fun _ => by rfl]
    | bare _ success =>
        obtain ⟨_, rfl⟩ := recordSucceeded_eq_ok success
        rwa [updateWhere_map _ fun _ => by rfl]
    | fail _ success =>
        obtain ⟨_, ⟨_, _, _, _, rfl⟩ | ⟨_, rfl⟩⟩ := recordFailed_cases success <;>
          rwa [updateWhere_map _ fun _ => by rfl]
  · intro before row known
    exact known

theorem store_sound (sound : Sound s) (call : Call) :
    Sound { s with db := exec crate s.db call } := by
  have keys := exec_keys crate s.db call sound.keys
  have housed : Housed (exec crate s.db call) := exec_housed sound.keys sound.housed call
  have grows : ∀ domainId ∈ s.db.policies.map PolicyRow.domainId,
      domainId ∈ (exec crate s.db call).policies.map PolicyRow.domainId :=
    fun domainId known => exec_known sound.keys call known
  rcases exec_recorded sound.keys call with same | ⟨domainId, known, capturedAt, recorded⟩
  · refine ⟨keys, housed, ?_, ?_, sound.unique, ?_⟩
    · refine ⟨same.outbox ▸ sound.rows.domains, same.outbox ▸ sound.rows.ids, ?_, ?_⟩
      · rw [same.outbox, same.nextId]
        exact sound.rows.drawn
      · rw [same.outbox]
        exact fun row member => grows _ (sound.rows.known row member)
    · intro writer member
      have kept := sound.writers writer member
      refine kept.transfer (Nat.le_of_eq same.nextId.symm) (Nat.le_refl _) (grows _ kept.known) ?_ ?_
      · intro row inTable
        rw [same.outbox] at inTable
        exact Or.inr ⟨row, inTable, rfl, rfl⟩
      · intro isLatest
        refine ⟨isLatest, rfl, ?_, ?_⟩
        · rw [Unqueued, Unqueued, same.outbox]
          exact id
        · intro row inTable sameDomain processing
          rw [same.outbox] at inTable
          exact ⟨⟨row, inTable, sameDomain, processing⟩, successes_of_same same _⟩
    · intro domainId empty crawled
      rw [Unqueued, same.outbox] at empty
      rw [successes_of_same same] at crawled ⊢
      exact sound.upToDate domainId empty crawled
  · refine ⟨keys, housed, sound.rows.record recorded known grows, ?_, sound.unique, ?_⟩
    · intro writer member
      have kept := sound.writers writer member
      refine kept.transfer ?_ (Nat.le_refl _) (grows _ kept.known) ?_ ?_
      · rw [recorded.nextId]
        exact Nat.le_succ _
      · intro row inTable
        rw [recorded.outbox] at inTable
        rcases mem_pendIndex inTable with ⟨old, _⟩ | ⟨sameDomain, _, ⟨old, inOld, oldDomain, sameId⟩ | new⟩
        · exact Or.inr ⟨row, old, rfl, rfl⟩
        · exact Or.inr ⟨old, inOld, sameId, oldDomain.trans sameDomain.symm⟩
        · exact Or.inl (Nat.le_of_eq new.symm)
      · intro isLatest
        refine ⟨isLatest, rfl, ?_, ?_⟩
        · intro queued empty
          apply queued
          intro row inTable sameDomain
          obtain ⟨later, inNext, laterDomain⟩ := pendIndex_keeps inTable
          rw [Unqueued, recorded.outbox] at empty
          exact empty later inNext (laterDomain.trans sameDomain)
        · intro row inTable sameDomain processing
          rw [recorded.outbox] at inTable
          rcases mem_pendIndex inTable with ⟨old, other⟩ | ⟨_, pending, _⟩
          · exact ⟨⟨row, old, sameDomain, processing⟩, recorded.successes (sameDomain ▸ other)⟩
          · rw [pending] at processing
            cases processing
    · intro other empty crawled
      rw [Unqueued, recorded.outbox] at empty
      have different : other ≠ domainId := by
        rintro rfl
        obtain ⟨row, inTable, same⟩ :=
          pendIndex_queues s.db.indexOutbox s.db.nextIndexId other capturedAt
        exact empty row inTable same
      rw [recorded.successes different] at crawled ⊢
      refine sound.upToDate other ?_ crawled
      intro row inTable same
      obtain ⟨later, inNext, laterDomain⟩ := pendIndex_keeps inTable
      exact empty later inNext (laterDomain.trans same)

end Steps

section Runs

theorem initial_sound (catalogue : Catalogue) : Sound (Indexing.initial catalogue) where
  keys := initial_keys catalogue
  housed := by
    constructor <;> exact fun _ member => nomatch member
  rows := by
    refine ⟨List.nodup_nil, List.nodup_nil, ?_, ?_⟩ <;> exact fun _ member => nomatch member
  writers := fun _ member => nomatch member
  unique := List.nodup_nil
  upToDate := fun _ _ crawled => nomatch crawled

theorem step_sound (s : Indexing) (action : Action) (fenced : Fenced s action)
    (sound : Sound s) : Sound (s.step crate collation action) := by
  cases action with
  | store call => exact store_sound sound call
  | claimReady now lease limit => exact claimReady_sound sound now lease limit
  | loadDomain place => exact loadDomain_sound sound place
  | loadTechnologies place => exact loadTechnologies_sound sound place
  | failLoad place => exact failLoad_sound sound place
  | land place => exact land_sound sound place fenced
  | respond place => exact respond_sound sound place
  | failUpsert place => exact failUpsert_sound sound place
  | complete place => exact complete_sound sound place fenced
  | fail place now retryAfter maxAttempts summary =>
      exact fail_sound sound place now retryAfter maxAttempts summary
  | stop place => exact stop_sound sound place

/-- As long as only the latest claim of a domain writes its document and
completes its row, a domain without an outbox row is shown as of its last
success. -/
theorem index_up_to_date (crate : UrlCrate) (collation : Collation) (catalogue : Catalogue)
    (actions : List Action)
    (fenced : Guarded (fun s action => s.step crate collation action) Fenced
      (Indexing.initial catalogue) actions) :
    UpToDate (run (fun s action => s.step crate collation action) (Indexing.initial catalogue)
      actions) := by
  have sound := run_invariant_of_guarded step_sound _ actions fenced (initial_sound catalogue)
  exact sound.upToDate

/-- A crawl of domain 1 that finds nothing, with identifiers from `seed` on. -/
def plainCrawl (seed : Uuid) (now : Time) : List Action :=
  let job : CrawlJobV1 := newJobWithCorrelation 1 (seed + 2) (seed + 1)
  let record : SuccessfulCrawlRecord := {
    snapshot := {
      requestedUrl := "https://example.com/".toList
      finalUrl := "https://example.com/".toList
      redirects := []
      responseStatus := 200
      responseHeaders := []
      bodySizeBytes := 0
      capturedAt := now
      countryObservation := none }
    artifact := none
    detections := []
    observations := [] }
  [.store (.reserveDue now 10 fun _ => ⟨seed, seed + 1, seed + 2⟩),
    .store (.claimAttempt job now),
    .store (.recordSuccess job record ⟨seed + 3, fun n => seed + 4 + n⟩)]

/-- An indexer reads the projection of the first crawl; before its request
lands, the domain is crawled again and another indexer claims the row. -/
def overtakenIndexer : List Action :=
  let domain := exampleDomain
  [.store (.createWithAudit 1 domain DomainCreationDefaults.crawlPolicy "operator".toList 0)] ++
    plainCrawl 10 0 ++
    [.claimReady 1 60 10, .loadDomain 0, .loadTechnologies 0,
      .store (.requestDomainCrawl domain "operator".toList 5)] ++
    plainCrawl 30 6 ++
    [.claimReady 7 60 10]

/-- The first indexer gives up, and the second one completes the row. -/
theorem overtakenIndexer_replaced :
    let s := run (fun s action => s.step plainUrlCrate codePoints action)
      (Indexing.initial Catalogue.empty) (overtakenIndexer ++
        [.failUpsert 0, .loadDomain 1, .loadTechnologies 1, .land 1, .respond 1, .complete 1])
    s.db.indexOutbox = [] ∧ successes s.db 1 = 2 ∧ UpToDate s :=
  ⟨by decide, by decide, index_up_to_date plainUrlCrate codePoints Catalogue.empty _ (by decide)⟩

/-- The first indexer writes what it has read and completes the row that the
second one has claimed. -/
theorem overtakenIndexer_stale :
    ¬UpToDate (run (fun s action => s.step plainUrlCrate codePoints action)
      (Indexing.initial Catalogue.empty) (overtakenIndexer ++
        [.land 0, .respond 0, .complete 0])) := by
  intro upToDate
  obtain ⟨document, shown, fresh⟩ := upToDate 1 (by decide) (by decide)
  revert fresh
  cases shown
  decide

end Runs

end TechAtlas.Search
