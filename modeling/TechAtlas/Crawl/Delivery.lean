import TechAtlas.Crawl.Pipeline

set_option autoImplicit false

/- A queued attempt can still be delivered as long as no component gives its
job up. The outbox row, the stream entry and the attempt live in two stores;
`Advance` says what a step may do to the three together. -/
namespace TechAtlas.Crawl

open Library Store Queue

variable {crate : UrlCrate} {config : RedisStreamsConfig}

section Definitions

def Known (db : Database) (jobId : Uuid) : Prop :=
  ∃ attempt ∈ db.attempts, attempt.jobId = jobId

def Waiting (db : Database) (jobId : Uuid) : Prop :=
  ∃ attempt ∈ db.attempts, attempt.jobId = jobId ∧ attempt.status = .queued

instance (db : Database) (jobId : Uuid) : Decidable (Waiting db jobId) :=
  inferInstanceAs (Decidable (∃ attempt ∈ db.attempts, _))

/-- The outbox row is neither published nor terminally failed. -/
def Posted (db : Database) (jobId : Uuid) : Prop :=
  ∃ row ∈ db.outbox, row.jobId = jobId ∧ row.isPending = true

instance (db : Database) (jobId : Uuid) : Decidable (Posted db jobId) :=
  inferInstanceAs (Decidable (∃ row ∈ db.outbox, _))

/-- An entry of the stream is unread or pending. -/
def Live (stream : Stream) (jobId : Uuid) : Prop :=
  ∃ entry ∈ stream.entries, entry.carries jobId = true ∧ entry.isLive = true

instance (stream : Stream) (jobId : Uuid) : Decidable (Live stream jobId) :=
  inferInstanceAs (Decidable (∃ entry ∈ stream.entries, _))

/-- Every queued attempt can still be delivered. -/
def Deliverable (s : Pipeline) : Prop :=
  ∀ attempt ∈ s.db.attempts, attempt.status = .queued →
    Posted s.db attempt.jobId ∨ Live s.stream attempt.jobId

instance (s : Pipeline) : Decidable (Deliverable s) :=
  inferInstanceAs (Decidable (∀ attempt ∈ s.db.attempts, _))

/-- The publish failure is the last one the outbox row of the job allows. -/
def exhausts (db : Database) (jobId : Uuid) (settings : SchedulerSettings) : Bool :=
  db.outbox.any fun row => row.jobId == jobId && row.isPending &&
    decide (settings.maxOutboxPublishAttempts.toNat ≤ row.publishAttemptCount + 1)

/-- Another entry of the stream carries the job. -/
def LiveElsewhere (stream : Stream) (entryId : Nat) (jobId : Uuid) : Prop :=
  ∃ entry ∈ stream.entries,
    entry.id ≠ entryId ∧ entry.carries jobId = true ∧ entry.isLive = true

instance (stream : Stream) (entryId : Nat) (jobId : Uuid) :
    Decidable (LiveElsewhere stream entryId jobId) :=
  inferInstanceAs (Decidable (∃ entry ∈ stream.entries, _))

/-- An action that gives a job up, the last publish failure of an outbox row or
the dead letter of an entry, does so when the job's attempt is no longer queued
or another entry carries the job. -/
def GivesUpSafely (s : Pipeline) : Action → Prop
  | .recordPublishFailure place _ settings =>
      ∀ publication ∈ s.publications[place]?, exhausts s.db publication.job.jobId settings = true →
        Waiting s.db publication.job.jobId → Live s.stream publication.job.jobId
  | .deadLetter place =>
      ∀ letter ∈ s.deliveries[place]?.bind Delivery.letter,
        ∀ entry ∈ s.stream.entries, entry.id = letter.sourceEntryId →
          ∀ job ∈ entry.job, Waiting s.db job.jobId →
            LiveElsewhere s.stream letter.sourceEntryId job.jobId
  | _ => True

instance (s : Pipeline) : (action : Action) → Decidable (GivesUpSafely s action)
  | .recordPublishFailure place _ _ =>
      inferInstanceAs (Decidable (∀ publication ∈ s.publications[place]?, _))
  | .deadLetter place =>
      inferInstanceAs (Decidable (∀ letter ∈ s.deliveries[place]?.bind Delivery.letter, _))
  | .store .. | .recoverStaleAttempts .. | .pick .. | .publish .. | .failPublish ..
  | .markPublished .. | .abandonPublication .. | .addInvalid | .receive | .reclaim .. | .examine ..
  | .claim .. | .succeed .. | .fail .. | .acknowledge .. | .abandonDelivery .. => .isTrue trivial

end Definitions

section Progress

/-- What a call other than an outbox report does to the attempts and the
outbox: rows are only added, each new queued attempt with its pending row. -/
structure Progress (db next : Database) : Prop where
  outbox : ∀ row ∈ db.outbox, row ∈ next.outbox
  queued : ∀ attempt ∈ next.attempts, attempt.status = .queued →
    attempt ∈ db.attempts ∨ Posted next attempt.jobId
  posted : ∀ row ∈ next.outbox, row ∈ db.outbox ∨ Known next row.jobId
  kept : ∀ attempt ∈ db.attempts, ∃ later ∈ next.attempts,
    later.jobId = attempt.jobId ∧ (later.status = .queued → attempt.status = .queued)

variable {db mid next : Database}

theorem Progress.refl (db : Database) : Progress db db where
  outbox := fun _ member => member
  queued := fun _ member _ => Or.inl member
  posted := fun _ member => Or.inl member
  kept := fun attempt member => ⟨attempt, member, rfl, id⟩

theorem Progress.known (progress : Progress db next) {jobId : Uuid} (known : Known db jobId) :
    Known next jobId := by
  obtain ⟨attempt, member, rfl⟩ := known
  obtain ⟨later, inNext, same, _⟩ := progress.kept attempt member
  exact ⟨later, inNext, same⟩

theorem Progress.pending (progress : Progress db next) {jobId : Uuid} (posted : Posted db jobId) :
    Posted next jobId := by
  obtain ⟨row, member, same, pending⟩ := posted
  exact ⟨row, progress.outbox row member, same, pending⟩

theorem Progress.trans (first : Progress db mid) (second : Progress mid next) :
    Progress db next where
  outbox := fun row member => second.outbox row (first.outbox row member)
  queued := by
    intro attempt member queued
    rcases second.queued attempt member queued with inMid | posted
    · rcases first.queued attempt inMid queued with old | posted
      · exact Or.inl old
      · exact Or.inr (second.pending posted)
    · exact Or.inr posted
  posted := by
    intro row member
    rcases second.posted row member with inMid | known
    · rcases first.posted row inMid with old | known
      · exact Or.inl old
      · exact Or.inr (second.known known)
    · exact Or.inr known
  kept := by
    intro attempt member
    obtain ⟨middle, inMid, sameMid, queuedMid⟩ := first.kept attempt member
    obtain ⟨later, inNext, same, queued⟩ := second.kept middle inMid
    exact ⟨later, inNext, same.trans sameMid, fun status => queuedMid (queued status)⟩

/-- One queued attempt is added with its post. -/
theorem progress_enqueue {row : AttemptRow} {post : OutboxRow}
    (attempts : next.attempts = db.attempts ++ [row]) (outbox : next.outbox = db.outbox ++ [post])
    (sameJob : post.jobId = row.jobId) (pending : post.isPending = true) : Progress db next := by
  have postIn : post ∈ next.outbox := by simp [outbox]
  have rowIn : row ∈ next.attempts := by simp [attempts]
  refine ⟨?_, ?_, ?_, ?_⟩
  · intro old member
    rw [outbox]
    exact List.mem_append_left _ member
  · intro attempt member _
    rw [attempts, List.mem_append, List.mem_singleton] at member
    rcases member with old | rfl
    · exact Or.inl old
    · exact Or.inr ⟨post, postIn, sameJob, pending⟩
  · intro old member
    rw [outbox, List.mem_append, List.mem_singleton] at member
    rcases member with inOutbox | rfl
    · exact Or.inl inOutbox
    · exact Or.inr ⟨row, rowIn, sameJob.symm⟩
  · intro attempt member
    refine ⟨attempt, ?_, rfl, id⟩
    rw [attempts]
    exact List.mem_append_left _ member

/-- Rows are replaced in place, none is queued by it. -/
theorem progress_update {selected : AttemptRow → Bool} {change : AttemptRow → AttemptRow}
    (attempts : next.attempts = updateWhere selected change db.attempts)
    (outbox : next.outbox = db.outbox)
    (keepsJob : ∀ attempt, (change attempt).jobId = attempt.jobId)
    (unqueued : ∀ attempt, (change attempt).status ≠ .queued) : Progress db next := by
  refine ⟨fun row member => outbox ▸ member, ?_, fun row member => Or.inl (outbox ▸ member), ?_⟩
  · intro attempt member queued
    rw [attempts] at member
    rcases mem_updateWhere_cases member with ⟨old, _⟩ | ⟨old, _, _, rfl⟩
    · exact Or.inl old
    · exact absurd queued (unqueued old)
  · intro attempt member
    by_cases chosen : selected attempt = true
    · refine ⟨change attempt, ?_, keepsJob attempt, fun queued => absurd queued (unqueued attempt)⟩
      rw [attempts]
      exact mem_updateWhere_of_selected member chosen
    · refine ⟨attempt, ?_, rfl, id⟩
      rw [attempts]
      exact mem_updateWhere_of_not member (by simpa using chosen)

theorem progress_same (attempts : next.attempts = db.attempts) (outbox : next.outbox = db.outbox) :
    Progress db next where
  outbox := fun _ member => outbox ▸ member
  queued := fun _ member _ => Or.inl (attempts ▸ member)
  posted := fun _ member => Or.inl (outbox ▸ member)
  kept := fun attempt member => ⟨attempt, attempts ▸ member, rfl, id⟩

theorem move_progress {names : Text → Prop} (move : Move names db next) : Progress db next := by
  cases move with
  | reserve _ _ success =>
      obtain ⟨_, _, rfl⟩ := reserveDomain_eq_ok success
      exact progress_enqueue rfl rfl rfl rfl
  | claim _ success =>
      obtain ⟨_, rfl⟩ := updateAttempt_eq_some.mp success
      exact progress_update rfl rfl (fun _ => rfl) (fun _ => by simp [AttemptRow.claimedAt])
  | retry success =>
      obtain ⟨_, _, _, _, _, _, _, _, _, _, _, rfl⟩ := retryTerminalAttempt_eq_ok success
      exact progress_enqueue rfl rfl rfl rfl
  | reschedule _ same => exact progress_same same.attempts same.outbox
  | register _ _ _ _ _ _ same => exact progress_same same.attempts same.outbox

theorem resolution_progress {records : SuccessfulCrawlRecord → Prop} {bare : Bool}
    (resolution : Resolution records db bare next) :
    Progress db next := by
  cases resolution with
  | succeed _ _ success =>
      obtain ⟨_, _, _, _, _, _, rfl⟩ := persistSuccess_eq_ok success
      exact progress_update rfl rfl (fun _ => rfl) (fun _ => by simp [AttemptRow.succeededAt])
  | bare _ success =>
      obtain ⟨_, rfl⟩ := recordSucceeded_eq_ok success
      exact progress_update rfl rfl (fun _ => rfl) (fun _ => by simp [AttemptRow.succeededAt])
  | @fail _ attempt failure now settings fresh member success =>
      -- the attempt fails, then the retry is queued
      let between : Database := { db with
        attempts := updateWhere (fun row => row.id == attempt.id)
          (AttemptRow.failedAt now failure) db.attempts }
      have failed : Progress db between :=
        progress_update rfl rfl (fun _ => rfl) (fun _ => by simp [AttemptRow.failedAt])
      obtain ⟨_, ⟨retryAt, _, _, _, rfl⟩ | ⟨_, rfl⟩⟩ := recordFailed_cases success
      · exact failed.trans (progress_enqueue rfl rfl rfl rfl)
      · exact failed.trans (progress_same rfl rfl)

theorem exec_progress (keys : Keys db) {call : Call} (silent : call.isPublication = false) :
    Progress db (exec crate db call) := by
  cases exec_effect keys.policyKeys call with
  | moves moves =>
      exact Moves.invariant (P := Progress db)
        (fun _ _ move before => before.trans (move_progress move)) moves (Progress.refl db)
  | resolution resolution => exact resolution_progress resolution
  | publication reports _ _ =>
      rw [silent] at reports
      cases reports

end Progress

section Advance

variable {s t : Pipeline}

/-- What a step may do to the store and the stream: no attempt goes back to the
queue, and a queued attempt keeps its live entry. -/
structure Advance (s t : Pipeline) : Prop where
  known : ∀ jobId, Known s.db jobId → Known t.db jobId
  waiting : ∀ jobId, Known s.db jobId → Waiting t.db jobId → Waiting s.db jobId
  live : ∀ jobId, Waiting t.db jobId → Live s.stream jobId → Live t.stream jobId
  entries : ∀ entry ∈ t.stream.entries, s.stream.nextId ≤ entry.id ∨
    ∃ old ∈ s.stream.entries, old.id = entry.id ∧ old.job = entry.job
  nextId : s.stream.nextId ≤ t.stream.nextId

/-- A published job has a live entry while its attempt is queued. -/
structure PublicationSound (s : Pipeline) (publication : Publication) : Prop where
  known : Known s.db publication.job.jobId
  published : publication.phase = .published → Waiting s.db publication.job.jobId →
    Live s.stream publication.job.jobId

/-- A delivery knows the job of its entry, and a processed one is no longer queued. -/
structure DeliverySound (s : Pipeline) (delivery : Delivery) : Prop where
  fresh : delivery.entryId < s.stream.nextId
  same : ∀ job ∈ delivery.phase.job, ∀ entry ∈ s.stream.entries, entry.id = delivery.entryId →
    entry.job = some job
  processed : ∀ job, delivery.phase = .processed job →
    Known s.db job.jobId ∧ ¬Waiting s.db job.jobId

structure Sound (s : Pipeline) : Prop where
  keys : Keys s.db
  deliverable : Deliverable s
  posted : ∀ row ∈ s.db.outbox, Known s.db row.jobId
  publications : ∀ publication ∈ s.publications, PublicationSound s publication
  deliveries : ∀ delivery ∈ s.deliveries, DeliverySound s delivery

theorem PublicationSound.advance {publication : Publication} (advance : Advance s t)
    (sound : PublicationSound s publication) : PublicationSound t publication where
  known := advance.known _ sound.known
  published := by
    intro published waiting
    have before := advance.waiting _ sound.known waiting
    exact advance.live _ waiting (sound.published published before)

theorem DeliverySound.advance {delivery : Delivery} (advance : Advance s t)
    (sound : DeliverySound s delivery) : DeliverySound t delivery where
  fresh := Nat.lt_of_lt_of_le sound.fresh advance.nextId
  same := by
    intro job carried entry member sameId
    rcases advance.entries entry member with added | ⟨old, inStream, oldId, oldJob⟩
    · have fresh := sound.fresh
      omega
    · rw [← oldJob]
      exact sound.same job carried old inStream (oldId.trans sameId)
  processed := by
    intro job processed
    obtain ⟨known, settled⟩ := sound.processed job processed
    exact ⟨advance.known _ known, fun waiting => settled (advance.waiting _ known waiting)⟩

/-- A step that leaves the store alone. -/
theorem Sound.restream (sound : Sound s) (sameDb : t.db = s.db) (advance : Advance s t)
    (publications : ∀ publication ∈ t.publications,
      publication ∈ s.publications ∨ PublicationSound t publication)
    (deliveries : ∀ delivery ∈ t.deliveries,
      delivery ∈ s.deliveries ∨ DeliverySound t delivery) : Sound t where
  keys := by
    rw [sameDb]
    exact sound.keys
  deliverable := by
    intro attempt member queued
    have waiting : Waiting t.db attempt.jobId := ⟨attempt, member, rfl, queued⟩
    rw [sameDb] at member
    rcases sound.deliverable attempt member queued with posted | live
    · rw [sameDb]
      exact Or.inl posted
    · exact Or.inr (advance.live _ waiting live)
  posted := by
    rw [sameDb]
    exact sound.posted
  publications := by
    intro publication member
    rcases publications publication member with old | new
    · exact (sound.publications publication old).advance advance
    · exact new
  deliveries := by
    intro delivery member
    rcases deliveries delivery member with old | new
    · exact (sound.deliveries delivery old).advance advance
    · exact new

theorem Progress.waiting {db next : Database} (progress : Progress db next) (keys : Keys next)
    {jobId : Uuid} (known : Known db jobId) (waiting : Waiting next jobId) : Waiting db jobId := by
  obtain ⟨attempt, member, rfl⟩ := known
  obtain ⟨later, inNext, sameJob, queued⟩ := progress.kept attempt member
  obtain ⟨found, inTable, foundJob, status⟩ := waiting
  have same := keys.attempt_eq_of_job inTable inNext (foundJob.trans sameJob.symm)
  rw [same] at status
  exact ⟨attempt, member, rfl, queued status⟩

/-- A transaction other than an outbox report. -/
theorem Sound.restore (sound : Sound s) (sameStream : t.stream = s.stream) (keys : Keys t.db)
    (progress : Progress s.db t.db) (publications : t.publications = s.publications)
    (deliveries : ∀ delivery ∈ t.deliveries,
      delivery ∈ s.deliveries ∨ DeliverySound t delivery) : Sound t := by
  have advance : Advance s t := by
    refine ⟨fun _ known => progress.known known,
      fun _ known waiting => progress.waiting keys known waiting, ?_, ?_, ?_⟩
    · intro jobId _ live
      rw [sameStream]
      exact live
    · intro entry member
      rw [sameStream] at member
      exact Or.inr ⟨entry, member, rfl, rfl⟩
    · rw [sameStream]
  refine ⟨keys, ?_, ?_, ?_, ?_⟩
  · intro attempt member queued
    rcases progress.queued attempt member queued with old | posted
    · rcases sound.deliverable attempt old queued with posted | live
      · exact Or.inl (progress.pending posted)
      · rw [sameStream]
        exact Or.inr live
    · exact Or.inl posted
  · intro row member
    rcases progress.posted row member with old | known
    · exact progress.known (sound.posted row old)
    · exact known
  · intro publication member
    rw [publications] at member
    exact (sound.publications publication member).advance advance
  · intro delivery member
    rcases deliveries delivery member with old | new
    · exact (sound.deliveries delivery old).advance advance
    · exact new

/-- A report on the outbox: a row that stops being pending leaves a live entry
behind, or an attempt that is no longer queued. -/
theorem Sound.report {selected : OutboxRow → Bool} {change : OutboxRow → OutboxRow}
    (sound : Sound s)
    (sameDb : t.db = { s.db with outbox := updateWhere selected change s.db.outbox })
    (sameStream : t.stream = s.stream) (keepsJob : ∀ row, (change row).jobId = row.jobId)
    (handed : ∀ row ∈ s.db.outbox, selected row = true → row.isPending = true →
      (change row).isPending = true ∨ (Waiting s.db row.jobId → Live s.stream row.jobId))
    (publications : ∀ publication ∈ t.publications, publication ∈ s.publications)
    (deliveries : t.deliveries = s.deliveries) : Sound t := by
  have sameAttempts : t.db.attempts = s.db.attempts := by rw [sameDb]
  have sameWaiting : ∀ jobId, Waiting t.db jobId ↔ Waiting s.db jobId := by
    intro jobId
    rw [Waiting, sameAttempts, Waiting]
  have sameKnown : ∀ jobId, Known t.db jobId ↔ Known s.db jobId := by
    intro jobId
    rw [Known, sameAttempts, Known]
  have advance : Advance s t := by
    refine ⟨fun jobId => (sameKnown jobId).mpr, fun jobId _ => (sameWaiting jobId).mp, ?_, ?_, ?_⟩
    · intro jobId _ live
      rw [sameStream]
      exact live
    · intro entry member
      rw [sameStream] at member
      exact Or.inr ⟨entry, member, rfl, rfl⟩
    · rw [sameStream]
  refine ⟨sameDb ▸ sound.keys.of_same rfl rfl, ?_, ?_, ?_, ?_⟩
  · intro attempt member queued
    rw [sameAttempts] at member
    rw [sameStream]
    rcases sound.deliverable attempt member queued with ⟨row, inOutbox, sameJob, pending⟩ | live
    · by_cases chosen : selected row = true
      · rcases handed row inOutbox chosen pending with still | handedOver
        · refine Or.inl ⟨change row, ?_, (keepsJob row).trans sameJob, still⟩
          rw [sameDb]
          exact mem_updateWhere_of_selected inOutbox chosen
        · rw [sameJob] at handedOver
          exact Or.inr (handedOver ⟨attempt, member, rfl, queued⟩)
      · refine Or.inl ⟨row, ?_, sameJob, pending⟩
        rw [sameDb]
        exact mem_updateWhere_of_not inOutbox (by simpa using chosen)
    · exact Or.inr live
  · intro row member
    rw [sameDb] at member
    rw [sameKnown]
    rcases mem_updateWhere_cases member with ⟨old, _⟩ | ⟨old, inOutbox, _, rfl⟩
    · exact sound.posted row old
    · rw [keepsJob]
      exact sound.posted old inOutbox
  · intro publication member
    exact (sound.publications publication (publications publication member)).advance advance
  · intro delivery member
    rw [deliveries] at member
    exact (sound.deliveries delivery member).advance advance

end Advance

section Stream

variable {s t : Pipeline} {stream : Stream}

theorem live_add {jobId : Uuid} (job : Option CrawlJobV1) (live : Live stream jobId) :
    Live (stream.add job) jobId := by
  obtain ⟨entry, member, carried, isLive⟩ := live
  exact ⟨entry, List.mem_append_left _ member, carried, isLive⟩

theorem advance_add (sameDb : t.db = s.db) {job : Option CrawlJobV1}
    (stream : t.stream = s.stream.add job) : Advance s t := by
  refine ⟨by simp [sameDb], by simp [sameDb], ?_, ?_, ?_⟩
  · intro jobId _ live
    rw [stream]
    exact live_add job live
  · intro entry member
    rw [stream, Stream.add, List.mem_append, List.mem_singleton] at member
    rcases member with old | rfl
    · exact Or.inr ⟨entry, old, rfl, rfl⟩
    · exact Or.inl (Nat.le_refl _)
  · rw [stream]
    exact Nat.le_succ _

theorem advance_same (sameDb : t.db = s.db) (sameStream : t.stream = s.stream) : Advance s t := by
  refine ⟨by simp [sameDb], by simp [sameDb], by simp [sameStream], ?_, by simp [sameStream]⟩
  intro entry member
  rw [sameStream] at member
  exact Or.inr ⟨entry, member, rfl, rfl⟩

/-- A change of an entry's state: an entry that dies belongs to an attempt that
is no longer queued, or to a job another entry carries. -/
theorem advance_setState (sameDb : t.db = s.db) {entryId : Nat} {change : EntryState → EntryState}
    (entries : t.stream.entries = (s.stream.setState entryId change).entries)
    (nextId : t.stream.nextId = s.stream.nextId)
    (spared : ∀ entry ∈ s.stream.entries, entry.id = entryId → entry.isLive = true →
      (entry.withState change).isLive = false → ∀ job ∈ entry.job, Waiting s.db job.jobId →
        LiveElsewhere s.stream entryId job.jobId) : Advance s t := by
  refine ⟨by simp [sameDb], by simp [sameDb], ?_, ?_, by simp [nextId]⟩
  · intro jobId waiting live
    rw [sameDb] at waiting
    obtain ⟨entry, member, carried, isLive⟩ := live
    by_cases chosen : entry.id = entryId
    · by_cases stays : (entry.withState change).isLive = true
      · refine ⟨entry.withState change, ?_, carried, stays⟩
        rw [entries]
        exact mem_updateWhere_of_selected member (by simpa using chosen)
      · obtain ⟨job, sameJob, sameId⟩ : ∃ job, entry.job = some job ∧ job.jobId = jobId := by
          simpa [StreamEntry.carries, Option.any_eq_true] using carried
        rw [← sameId] at waiting
        obtain ⟨other, inStream, different, otherCarries, otherLive⟩ :=
          spared entry member chosen isLive (by simpa using stays) job sameJob waiting
        refine ⟨other, ?_, sameId ▸ otherCarries, otherLive⟩
        rw [entries]
        exact mem_updateWhere_of_not inStream (by simpa using different)
    · refine ⟨entry, ?_, carried, isLive⟩
      rw [entries]
      exact mem_updateWhere_of_not member (by simpa using chosen)
  · intro entry member
    rw [entries] at member
    rcases mem_updateWhere_cases member with ⟨old, _⟩ | ⟨old, inStream, _, rfl⟩
    · exact Or.inr ⟨entry, old, rfl, rfl⟩
    · exact Or.inr ⟨old, inStream, rfl, rfl⟩

/-- A delivery, first or repeated, keeps the entry live. -/
theorem advance_deliver (sameDb : t.db = s.db) {entryId : Nat} {change : EntryState → EntryState}
    (stream : t.stream = s.stream.setState entryId change)
    (delivers : ∀ entry ∈ s.stream.entries, entry.id = entryId → entry.isLive = true →
      (entry.withState change).isLive = true) : Advance s t := by
  refine advance_setState sameDb (by rw [stream]) (by rw [stream]; rfl) ?_
  intro entry member chosen isLive dies
  rw [delivers entry member chosen isLive] at dies
  cases dies

end Stream

section Publications

variable {s : Pipeline}

theorem dropPublication_mem {place : Nat} {publication : Publication}
    (member : publication ∈ (s.dropPublication place).publications) :
    publication ∈ s.publications :=
  List.mem_of_mem_eraseIdx member

theorem dropPublication_sound (sound : Sound s) (place : Nat) : Sound (s.dropPublication place) :=
  sound.restream rfl (advance_same rfl rfl) (fun _ member => Or.inl (dropPublication_mem member))
    (fun _ member => Or.inl member)

theorem pendingPublications_known (sound : Sound s) {now : Time} {limit : Nat}
    {pending : List PendingCrawlJob} (success : pendingPublications s.db now limit = .ok pending) :
    ∀ row ∈ pending, Known s.db row.job.jobId := by
  unfold pendingPublications at success
  split at success
  · cases success
    simp
  · split at success
    · cases success
    · intro row member
      obtain ⟨source, inOutbox, decoded⟩ := mem_of_mapM_eq_ok success member
      have listed : source ∈ s.db.outbox := by
        have sorted := List.mem_of_mem_take inOutbox
        rw [List.mem_insertionSort] at sorted
        exact List.mem_of_mem_filter sorted
      unfold rowToPendingJob at decoded
      split at decoded
      · cases decoded
        exact sound.posted source listed
      · cases decoded

theorem pick_sound (sound : Sound s) (now : Time) (limit : Nat) : Sound (s.pick now limit) := by
  unfold Pipeline.pick
  split
  · rename_i pending success
    refine sound.restream rfl (advance_same rfl rfl) ?_ (fun _ member => Or.inl member)
    intro publication member
    rw [List.mem_append, List.mem_map] at member
    rcases member with old | ⟨row, inPending, rfl⟩
    · exact Or.inl old
    · have known := pendingPublications_known sound success row inPending
      exact Or.inr ⟨known, fun published => by cases published⟩
  · exact sound

theorem publish_sound (sound : Sound s) (place : Nat) : Sound (s.publish place) := by
  unfold Pipeline.publish
  split
  · rename_i job found
    refine sound.restream rfl (advance_add rfl rfl) ?_ (fun _ member => Or.inl member)
    intro publication member
    rcases List.mem_or_eq_of_mem_set member with old | rfl
    · exact Or.inl old
    · refine Or.inr ⟨(sound.publications _ (List.mem_of_getElem? found)).known, ?_⟩
      intro _ _
      exact ⟨_, List.mem_append_right _ (List.mem_singleton.mpr rfl),
        by simp [StreamEntry.carries], rfl⟩
  · exact sound

theorem failPublish_sound (sound : Sound s) (place : Nat) (landed : Bool) :
    Sound (s.failPublish place landed) := by
  unfold Pipeline.failPublish
  split
  · rename_i job found
    have advance : Advance s ({ s with
        stream := if landed then s.stream.add (some job) else s.stream }.setPublication place
          ⟨job, .failed⟩) := by
      cases landed with
      | true => exact advance_add rfl rfl
      | false => exact advance_same rfl rfl
    refine sound.restream rfl advance ?_ (fun _ member => Or.inl member)
    intro publication member
    rcases List.mem_or_eq_of_mem_set member with old | rfl
    · exact Or.inl old
    · have known := (sound.publications _ (List.mem_of_getElem? found)).known
      exact Or.inr ⟨known, fun published => by cases published⟩
  · exact sound

theorem markPublished_sound (sound : Sound s) (place : Nat) (now : Time) :
    Sound (s.markPublished crate place now) := by
  unfold Pipeline.markPublished
  split
  · rename_i job found
    have published := sound.publications _ (List.mem_of_getElem? found)
    cases committed : markPublished s.db job.jobId now with
    | error reason =>
        have same : exec crate s.db (.markPublished job.jobId now) = s.db := by
          simp [exec, transact, committed, Except.toOption]
        rw [same]
        exact dropPublication_sound sound place
    | ok next =>
        have same : exec crate s.db (.markPublished job.jobId now) = next := by
          simp [exec, transact, committed, Except.toOption]
        rw [same]
        refine sound.report (markPublished_eq_ok committed) rfl (fun _ => rfl) ?_
          (fun _ member => dropPublication_mem member) rfl
        intro row _ selected _
        simp only [Bool.and_eq_true, beq_iff_eq] at selected
        rw [selected.1]
        exact Or.inr (published.published rfl)
  · exact sound

theorem recordPublishFailure_sound (sound : Sound s) (place : Nat) (now : Time)
    (settings : SchedulerSettings)
    (safe : GivesUpSafely s (.recordPublishFailure place now settings)) :
    Sound (s.recordPublishFailure crate place now settings) := by
  unfold Pipeline.recordPublishFailure
  split
  · rename_i job found
    cases committed : recordPublishFailure s.db job.jobId now settings with
    | error reason =>
        have same : exec crate s.db (.recordPublishFailure job.jobId now settings) = s.db := by
          simp [exec, transact, committed, Except.toOption]
        rw [same]
        exact dropPublication_sound sound place
    | ok next =>
        have same : exec crate s.db (.recordPublishFailure job.jobId now settings) = next := by
          simp [exec, transact, committed, Except.toOption]
        rw [same]
        rcases recordPublishFailure_cases committed with rfl |
          ⟨row, inOutbox, sameJob, pending, ⟨last, abandoned⟩ | ⟨_, nextPublishAt, postponed⟩⟩
        · exact dropPublication_sound sound place
        · refine sound.report abandoned rfl (fun _ => rfl) ?_
            (fun _ member => dropPublication_mem member) rfl
          have exhausted : exhausts s.db job.jobId settings = true := by
            rw [exhausts, List.any_eq_true]
            exact ⟨row, inOutbox, by simp [sameJob, pending, last]⟩
          intro other _ selected _
          simp only [beq_iff_eq] at selected
          rw [selected]
          exact Or.inr (safe _ (Option.mem_def.mpr found) exhausted)
        · refine sound.report postponed rfl (fun _ => rfl) ?_
            (fun _ member => dropPublication_mem member) rfl
          intro other _ _ stillPending
          exact Or.inl stillPending
  · exact sound

end Publications

section Deliveries

variable {s : Pipeline}

theorem setDelivery_mem {t : Pipeline} {place : Nat} {new delivery : Delivery}
    (member : delivery ∈ (t.setDelivery place new).deliveries) :
    delivery ∈ t.deliveries ∨ delivery = new :=
  List.mem_or_eq_of_mem_set member

theorem dropDelivery_mem {t : Pipeline} {place : Nat} {delivery : Delivery}
    (member : delivery ∈ (t.dropDelivery place).deliveries) : delivery ∈ t.deliveries :=
  List.mem_of_mem_eraseIdx member

theorem dropDelivery_sound (sound : Sound s) (place : Nat) : Sound (s.dropDelivery place) :=
  sound.restream rfl (advance_same rfl rfl) (fun _ member => Or.inl member)
    (fun _ member => Or.inl (dropDelivery_mem member))

/-- The job of a decoded entry is the entry's. -/
theorem decodeEntry_job {entry : StreamEntry} {deliveryCount : Nat} {job : CrawlJobV1}
    (decoded : (decodeEntry entry deliveryCount).job = some job) : entry.job = some job := by
  unfold decodeEntry at decoded
  split at decoded
  · rename_i found payload
    rw [payload]
    exact decoded
  · cases decoded

theorem decodeEntry_ne_processed (entry : StreamEntry) (deliveryCount : Nat) (job : CrawlJobV1) :
    decodeEntry entry deliveryCount ≠ .processed job := by
  unfold decodeEntry
  split <;> simp

theorem examined_job {entry : StreamEntry} {deliveryCount : Nat} {job : CrawlJobV1}
    (found : (examined config entry deliveryCount).job = some job) : entry.job = some job := by
  unfold examined at found
  split at found
  · cases found
  · exact decodeEntry_job found

theorem examined_ne_processed (entry : StreamEntry) (deliveryCount : Nat) (job : CrawlJobV1) :
    examined config entry deliveryCount ≠ .processed job := by
  unfold examined
  split
  · simp
  · exact decodeEntry_ne_processed entry deliveryCount job

/-- A delivery that a worker starts from an entry of the stream. -/
theorem deliverySound_of_entry {t : Pipeline} {entry : StreamEntry} {phase : DeliveryPhase}
    (member : entry ∈ s.stream.entries) (advance : Advance s t)
    (carried : ∀ job ∈ phase.job, entry.job = some job)
    (unprocessed : ∀ job, phase ≠ .processed job) : DeliverySound t ⟨entry.id, phase⟩ := by
  have before : DeliverySound s ⟨entry.id, phase⟩ := by
    refine ⟨s.stream.fresh entry member, ?_, ?_⟩
    · intro job inPhase other inStream sameId
      rw [Stream.entry_eq inStream member sameId]
      exact carried job inPhase
    · intro job processed
      exact absurd processed (unprocessed job)
  exact before.advance advance

theorem receive_sound (sound : Sound s) : Sound s.receive := by
  unfold Pipeline.receive
  split
  · rename_i stream entry found
    obtain ⟨unread, first, same⟩ := Option.map_eq_some_iff.mp found
    cases same
    obtain ⟨member, _⟩ := find?_eq_some_mem first
    refine sound.restream rfl (advance_deliver rfl rfl fun _ _ _ _ => rfl)
      (fun _ member => Or.inl member) ?_
    intro delivery inList
    rw [List.mem_append, List.mem_singleton] at inList
    rcases inList with old | rfl
    · exact Or.inl old
    · refine Or.inr (deliverySound_of_entry member (advance_deliver rfl rfl fun _ _ _ _ => rfl)
        ?_ (decodeEntry_ne_processed entry 1))
      exact fun job decoded => decodeEntry_job decoded
  · exact sound

theorem redelivered_isLive (entry : StreamEntry) :
    (entry.withState Stream.redelivered).isLive = entry.isLive := by
  obtain ⟨id, job, state⟩ := entry
  cases state <;> rfl

theorem reclaim_sound (sound : Sound s) (entryId : Nat) : Sound (s.reclaim entryId) := by
  unfold Pipeline.reclaim
  split
  · rename_i stream claimed
    unfold Stream.autoClaim at claimed
    split at claimed
    · rename_i id job timesDelivered found
      cases claimed
      obtain ⟨member, rfl⟩ := Stream.mem_of_find found
      have delivers : ∀ entry ∈ s.stream.entries, entry.id = id → entry.isLive = true →
          (entry.withState Stream.redelivered).isLive = true := by
        intro entry _ _ isLive
        rw [redelivered_isLive]
        exact isLive
      refine sound.restream rfl (advance_deliver rfl rfl delivers) (fun _ member => Or.inl member) ?_
      intro delivery inList
      rw [List.mem_append, List.mem_singleton] at inList
      rcases inList with old | rfl
      · exact Or.inl old
      · exact Or.inr (deliverySound_of_entry member (advance_deliver rfl rfl delivers)
          (by simp [DeliveryPhase.job]) (by simp))
    · cases claimed
  · exact sound

theorem examine_sound (sound : Sound s) (place : Nat) : Sound (s.examine config place) := by
  unfold Pipeline.examine
  split
  · rename_i entryId listed
    split
    · rename_i entry deliveryCount found counted
      obtain ⟨member, rfl⟩ := Stream.mem_of_find found
      refine sound.restream rfl (advance_same rfl rfl) (fun _ member => Or.inl member) ?_
      intro delivery inList
      rcases setDelivery_mem inList with old | rfl
      · exact Or.inl old
      · refine Or.inr (deliverySound_of_entry member (advance_same rfl rfl) ?_
          (examined_ne_processed entry deliveryCount))
        exact fun job decoded => examined_job decoded
    · exact dropDelivery_sound sound place
  · exact sound

theorem deadLetter_sound (sound : Sound s) (place : Nat)
    (safe : GivesUpSafely s (.deadLetter place)) : Sound (s.deadLetter place) := by
  unfold Pipeline.deadLetter
  split
  · rename_i letter found
    refine sound.restream rfl ?_ (fun _ member => Or.inl member)
      (fun _ member => Or.inl (dropDelivery_mem member))
    refine advance_setState rfl (Stream.deadLetter_entries s.stream letter)
      (Stream.deadLetter_nextId s.stream letter) ?_
    intro entry member chosen _ _ job carried waiting
    exact safe letter (Option.mem_def.mpr found) entry member chosen job carried waiting
  · exact sound

/-- The entry of a processed delivery belongs to an attempt that is settled. -/
theorem acknowledge_sound (sound : Sound s) (place : Nat) : Sound (s.acknowledge place) := by
  unfold Pipeline.acknowledge
  split
  · rename_i entryId job listed
    have delivery := sound.deliveries _ (List.mem_of_getElem? listed)
    refine sound.restream rfl ?_ (fun _ member => Or.inl member)
      (fun _ member => Or.inl (dropDelivery_mem member))
    refine advance_setState rfl rfl rfl ?_
    intro entry member chosen _ _ carried sameJob waiting
    have same := delivery.same job rfl entry member chosen
    rw [Option.mem_def, same, Option.some.injEq] at sameJob
    rw [← sameJob] at waiting
    exact absurd waiting (delivery.processed job rfl).2
  · exact sound

end Deliveries

section Outcomes

variable {s : Pipeline} {db next : Database}

theorem not_waiting_of_terminal (keys : Keys db) {attempt : AttemptRow}
    (member : attempt ∈ db.attempts) (terminal : attempt.status.isTerminal = true) :
    ¬Waiting db attempt.jobId := by
  rintro ⟨found, inTable, sameJob, queued⟩
  rw [keys.attempt_eq_of_job inTable member sameJob] at queued
  rw [queued] at terminal
  cases terminal

/-- An attempt that a transaction resolved is known and no longer queued. -/
theorem settled_of_resolved (keys : Keys next) {attempt : AttemptRow}
    {change : AttemptRow → AttemptRow} {added : List AttemptRow}
    (attempts : next.attempts =
      updateWhere (fun row => row.id == attempt.id) change db.attempts ++ added)
    (member : attempt ∈ db.attempts) (keepsJob : (change attempt).jobId = attempt.jobId)
    (terminal : (change attempt).status.isTerminal = true) :
    Known next attempt.jobId ∧ ¬Waiting next attempt.jobId := by
  have inNext : change attempt ∈ next.attempts := by
    rw [attempts]
    exact List.mem_append_left _ (mem_updateWhere_of_selected member (beq_self_eq_true _))
  rw [← keepsJob]
  exact ⟨⟨_, inNext, rfl⟩, not_waiting_of_terminal keys inNext terminal⟩

theorem settled_of_terminal (keys : Keys db) {attempt : AttemptRow}
    (member : attempt ∈ db.attempts) (terminal : attempt.status.isTerminal = true) :
    Known db attempt.jobId ∧ ¬Waiting db attempt.jobId :=
  ⟨⟨attempt, member, rfl⟩, not_waiting_of_terminal keys member terminal⟩

theorem recordSuccess_settled {job : CrawlJobV1} {record : SuccessfulCrawlRecord}
    {fresh : FreshSnapshot} (keys : Keys next)
    (success : recordSuccess db job record fresh = .ok next) :
    Known next job.jobId ∧ ¬Waiting next job.jobId := by
  obtain ⟨attempt, member, sameJob, ⟨terminal, rfl⟩ | persisted⟩ := recordSuccess_cases success
  · rw [← sameJob]
    exact settled_of_terminal keys member terminal
  · obtain ⟨_, _, _, _, _, _, rfl⟩ := persistSuccess_eq_ok persisted
    rw [← sameJob]
    exact settled_of_resolved keys (List.append_nil _).symm member rfl rfl

theorem recordFailure_settled {job : CrawlJobV1} {failure : CrawlFailure} {finishedAt : Time}
    {settings : SchedulerSettings} {fresh : FreshJob} (keys : Keys next)
    (success : recordFailure db job failure finishedAt settings fresh = .ok next) :
    Known next job.jobId ∧ ¬Waiting next job.jobId := by
  obtain ⟨attempt, member, sameJob, ⟨terminal, rfl⟩ | ⟨_, ⟨bare, _⟩ | ⟨_, _, failed⟩⟩⟩ :=
    recordAttemptOutcome_cases (mapError_eq_ok.mp success)
  · rw [← sameJob]
    exact settled_of_terminal keys member terminal
  · cases bare
  · rw [← sameJob]
    obtain ⟨_, ⟨_, _, _, _, rfl⟩ | ⟨_, rfl⟩⟩ := recordFailed_cases failed
    · exact settled_of_resolved keys rfl member rfl rfl
    · exact settled_of_resolved keys (List.append_nil _).symm member rfl rfl

/-- A delivery whose transaction committed moves on in the new store. -/
theorem sound_of_commit (sound : Sound s) {place entryId : Nat} {old new : DeliveryPhase}
    {job : CrawlJobV1} {call : Call} (silent : call.isPublication = false)
    (committed : exec crate s.db call = next)
    (listed : s.deliveries[place]? = some ⟨entryId, old⟩) (before : old.job = some job)
    (after : new.job = some job)
    (processed : ∀ done, new = .processed done →
      Known next done.jobId ∧ ¬Waiting next done.jobId) :
    Sound ({ s with db := next }.setDelivery place ⟨entryId, new⟩) := by
  have delivery := sound.deliveries _ (List.mem_of_getElem? listed)
  subst committed
  refine sound.restore rfl (exec_keys crate s.db call sound.keys) (exec_progress sound.keys silent)
    rfl ?_
  intro other member
  rcases setDelivery_mem member with listed | rfl
  · exact Or.inl listed
  · refine Or.inr ⟨delivery.fresh, ?_, processed⟩
    intro found inPhase
    rw [Option.mem_def, after, ← before] at inPhase
    exact delivery.same found inPhase

theorem claim_sound (sound : Sound s) (place : Nat) (startedAt : Time) :
    Sound (s.claim crate place startedAt) := by
  unfold Pipeline.claim
  split
  · rename_i entryId job listed
    cases claimed : claimAttempt crate s.db job startedAt with
    | error reason => exact dropDelivery_sound sound place
    | ok result =>
        obtain ⟨next, claim⟩ := result
        have committed : exec crate s.db (.claimAttempt job startedAt) = next := by
          simp [exec, transact, claimed, Except.map, Except.toOption]
        cases claim with
        | ready canonicalDomain =>
            exact sound_of_commit sound rfl committed listed rfl rfl (by simp)
        | terminal =>
            refine sound_of_commit sound rfl committed listed rfl rfl ?_
            intro done same
            cases same
            obtain ⟨attempt, member, selected, ⟨terminal, _, rfl⟩ | ⟨_, _, ready, _⟩⟩ :=
              claimAttempt_cases claimed
            · rw [← matchesJob_jobId selected]
              exact settled_of_terminal sound.keys member terminal
            · cases ready
  · exact sound

theorem succeed_sound (sound : Sound s) (place : Nat) (record : SuccessfulCrawlRecord)
    (fresh : FreshSnapshot) : Sound (s.succeed place record fresh) := by
  unfold Pipeline.succeed
  split
  · rename_i entryId job listed
    cases recorded : recordSuccess s.db job record fresh with
    | error reason => exact dropDelivery_sound sound place
    | ok next =>
        have committed : exec plainUrlCrate s.db (.recordSuccess job record fresh) = next := by
          simp [exec, transact, recorded, Except.toOption]
        refine sound_of_commit sound rfl committed listed rfl rfl ?_
        intro done same
        cases same
        refine recordSuccess_settled ?_ recorded
        rw [← committed]
        exact exec_keys plainUrlCrate s.db _ sound.keys
  · exact sound

theorem fail_sound (sound : Sound s) (place : Nat) (failure : CrawlFailure) (finishedAt : Time)
    (settings : SchedulerSettings) (fresh : FreshJob) :
    Sound (s.fail place failure finishedAt settings fresh) := by
  unfold Pipeline.fail
  split
  · rename_i entryId job listed
    cases recorded : recordFailure s.db job failure finishedAt settings fresh with
    | error reason => exact dropDelivery_sound sound place
    | ok next =>
        have committed : exec plainUrlCrate s.db
            (.recordFailure job failure finishedAt settings fresh) = next := by
          simp [exec, transact, recorded, Except.toOption]
        refine sound_of_commit sound rfl committed listed rfl rfl ?_
        intro done same
        cases same
        refine recordFailure_settled ?_ recorded
        rw [← committed]
        exact exec_keys plainUrlCrate s.db _ sound.keys
  · exact sound

theorem store_sound (sound : Sound s) (call : Call) : Sound (s.store crate call) := by
  unfold Pipeline.store
  split
  · exact sound
  · rename_i silent
    exact sound.restore rfl (exec_keys crate s.db call sound.keys)
      (exec_progress sound.keys (by simpa using silent)) rfl (fun _ member => Or.inl member)

theorem recoverStaleAttempts_sound (sound : Sound s) (now : Time) (staleAfter : Duration)
    (limit : Nat) (settings : SchedulerSettings) (fresh : Uuid → FreshJob) :
    Sound { s with db := (recoverStaleAttempts s.db now staleAfter limit settings fresh).1 } := by
  obtain ⟨calls, silent, same⟩ :=
    recoverStaleAttempts_run plainUrlCrate s.db now staleAfter limit settings fresh
  rw [same]
  clear same
  induction calls generalizing s with
  | nil => exact sound
  | cons call rest ih =>
      have first : Sound (s.store plainUrlCrate call) := store_sound sound call
      rw [Pipeline.store, if_neg (by simp [silent call List.mem_cons_self])] at first
      exact ih first fun later member => silent later (List.mem_cons_of_mem call member)

end Outcomes

section Runs

theorem initial_sound (catalogue : Catalogue) : Sound (Pipeline.initial catalogue) where
  keys := initial_keys catalogue
  deliverable := fun _ member => nomatch member
  posted := fun _ member => nomatch member
  publications := fun _ member => nomatch member
  deliveries := fun _ member => nomatch member

theorem step_sound (s : Pipeline) (action : Action) (safe : GivesUpSafely s action)
    (sound : Sound s) : Sound (s.step crate config action) := by
  cases action with
  | store call => exact store_sound sound call
  | recoverStaleAttempts now staleAfter limit settings fresh =>
      exact recoverStaleAttempts_sound sound now staleAfter limit settings fresh
  | pick now limit => exact pick_sound sound now limit
  | publish place => exact publish_sound sound place
  | failPublish place landed => exact failPublish_sound sound place landed
  | markPublished place now => exact markPublished_sound sound place now
  | recordPublishFailure place now settings =>
      exact recordPublishFailure_sound sound place now settings safe
  | abandonPublication place => exact dropPublication_sound sound place
  | addInvalid =>
      exact sound.restream rfl (advance_add rfl rfl) (fun _ member => Or.inl member)
        (fun _ member => Or.inl member)
  | receive => exact receive_sound sound
  | reclaim entryId => exact reclaim_sound sound entryId
  | examine place => exact examine_sound sound place
  | deadLetter place => exact deadLetter_sound sound place safe
  | claim place startedAt => exact claim_sound sound place startedAt
  | succeed place record fresh => exact succeed_sound sound place record fresh
  | fail place failure finishedAt settings fresh =>
      exact fail_sound sound place failure finishedAt settings fresh
  | acknowledge place => exact acknowledge_sound sound place
  | abandonDelivery place => exact dropDelivery_sound sound place

/-- As long as no job is given up while its attempt is queued, every queued
attempt can still be delivered. -/
theorem queued_attempts_deliverable (crate : UrlCrate) (config : RedisStreamsConfig)
    (catalogue : Catalogue) (actions : List Action)
    (safe : Guarded (Pipeline.step crate config) GivesUpSafely (Pipeline.initial catalogue)
      actions) :
    Deliverable (run (Pipeline.step crate config) (Pipeline.initial catalogue) actions) := by
  have sound := run_invariant_of_guarded step_sound _ actions safe (initial_sound catalogue)
  exact sound.deliverable

/-- A worker stops before its claim, the entry is delivered again, and an entry
that is no crawl job is dead-lettered. -/
def redeliveredCrawl : List Action :=
  let domain := exampleDomain
  [.store (.createWithAudit 1 domain DomainCreationDefaults.crawlPolicy "operator".toList 0),
    .store (.reserveDue 0 10 fun _ => ⟨10, 11, 12⟩),
    .pick 0 10,
    .failPublish 0 false,
    .recordPublishFailure 0 0 .default,
    .pick 60000000 10,
    .publish 0,
    .markPublished 0 60000000,
    .addInvalid,
    .receive,
    .abandonDelivery 0,
    .receive,
    .deadLetter 0,
    .reclaim 0,
    .examine 0]

theorem redeliveredCrawl_deliverable :
    (run (Pipeline.step plainUrlCrate .default) (Pipeline.initial Catalogue.empty)
        redeliveredCrawl).db.attempts.map AttemptRow.status = [.queued] ∧
      Deliverable (run (Pipeline.step plainUrlCrate .default) (Pipeline.initial Catalogue.empty)
        redeliveredCrawl) :=
  ⟨by decide, queued_attempts_deliverable plainUrlCrate .default Catalogue.empty redeliveredCrawl
    (by decide)⟩

/-- The domain is reserved, and Redis refuses its job as often as the outbox tries. -/
def unpublishedCrawl : List Action :=
  let domain := exampleDomain
  let refused (now : Time) : List Action :=
    [.pick now 10, .failPublish 0 false, .recordPublishFailure 0 now .default]
  [.store (.createWithAudit 1 domain DomainCreationDefaults.crawlPolicy "operator".toList 0),
    .store (.reserveDue 0 10 fun _ => ⟨10, 11, 12⟩)] ++
    refused 0 ++ refused 100000000 ++ refused 200000000 ++ refused 300000000 ++
    refused 400000000

/-- The attempt of `unpublishedCrawl` stays queued with nothing left to deliver it. -/
theorem unpublishedCrawl_undeliverable :
    ¬Deliverable (run (Pipeline.step plainUrlCrate .default) (Pipeline.initial Catalogue.empty)
      unpublishedCrawl) := by
  decide

end Runs

end TechAtlas.Crawl
