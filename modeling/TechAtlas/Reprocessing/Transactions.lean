import TechAtlas.Reprocessing.Interleavings

set_option autoImplicit false

/- The statements of the open transactions, up to the commit. -/
namespace TechAtlas.Reprocessing

open Library TechAtlas.Detector TechAtlas.Store TechAtlas.Storage

section Closing

variable {db : Database}

/-- Fewer held items and fewer transactions are sound. -/
theorem Database.Sound.part (sound : db.Sound) {live : List WorkItem} {sessions : List Session}
    (fewerLive : live.Sublist db.live) (fewer : sessions.Sublist db.sessions) :
    ({ db with live := live, sessions := sessions } : Database).Sound where
  tables := sound.tables
  live work member := sound.live work (fewerLive.subset member)
  sessions session member := sound.sessions session (fewer.subset member)
  apart := ((fewerLive.map _).append (fewer.map _)).nodup sound.apart
  detectionIds := by
    have part := (List.Sublist.refl db.tables.detections).append
      (fewer.flatMap fun session => detectionsIn session.rows)
    exact (part.map _).nodup sound.detectionIds

theorem close_sound (sound : db.Sound) (itemId : Uuid) : (db.close itemId db.tables).Sound :=
  sound.part (List.Sublist.refl _) List.filter_sublist

theorem lose_sound (sound : db.Sound) (itemId : Uuid) :
    ({ db.close itemId db.tables with
      live := db.live.filter fun work => work.id != itemId } : Database).Sound :=
  sound.part List.filter_sublist List.filter_sublist

theorem statements_progress (report : Report) (completedAt : Time) (work : WorkItem) :
    (Session.begin work report completedAt).Progress ∧
      ∃ statement rest, report.statements completedAt = statement :: rest := by
  cases report with
  | succeeded evaluation =>
      have plain : ∀ other ∈ RowStatement.insertObservation evaluation.observation.status ::
          detectionStatements evaluation, other.isUpdate = false := by
        intro other member
        rcases List.mem_cons.mp member with rfl | inDetection
        · rfl
        · unfold detectionStatements at inDetection
          split at inDetection
          · cases inDetection
          · rcases List.mem_cons.mp inDetection with rfl | inEvidence
            · rfl
            · obtain ⟨evidence, _, rfl⟩ := List.mem_map.mp inEvidence
              rfl
      have progress : (Session.begin work (.succeeded evaluation) completedAt).Progress :=
        And.intro (fun _ absent => nomatch absent) ⟨_, _, rfl, plain, .inl rfl⟩
      exact ⟨progress, _, _, rfl⟩
  | failed summary retryAt terminal =>
      have plain : ∀ other ∈ [RowStatement.lockItem], other.isUpdate = false ∧
          other.isLock = true := by
        intro other member
        rw [List.mem_singleton.mp member]
        exact ⟨rfl, rfl⟩
      have progress :
          (Session.begin work (.failed summary retryAt terminal) completedAt).Progress :=
        And.intro (fun _ absent => nomatch absent) ⟨[.lockItem], _, rfl,
          fun other member => (plain other member).1,
          .inr ⟨rfl, fun other member => (plain other member).2⟩⟩
      exact ⟨progress, _, _, rfl⟩

theorem begin_session_sound {tables : Tables} {work : WorkItem} (held : work.Held tables)
    (report : Report) (completedAt : Time) :
    (Session.begin work report completedAt).Sound tables where
  held := held
  runId := rfl
  own _ absent := nomatch absent
  observedOnce := Nat.zero_le 1
  detectedOnce := Nat.zero_le 1
  detectionsDrawn _ absent := nomatch absent
  progress := (statements_progress report completedAt work).1
  settled _ counted _ := nomatch counted
  derived := trivial

theorem begin_sound (sound : db.Sound) {work : WorkItem} (member : work ∈ db.live)
    (report : Report) (completedAt : Time) :
    ({ db with
      live := db.live.filter fun other => other.id != work.id
      sessions := db.sessions ++ [Session.begin work report completedAt] } : Database).Sound where
  tables := sound.tables
  live other inLive := sound.live other (List.mem_filter.mp inLive).1
  sessions session inSessions := by
    rcases List.mem_append.mp inSessions with old | new
    · exact sound.sessions session old
    · rw [List.mem_singleton.mp new]
      exact begin_session_sound (sound.live work member) report completedAt
  apart := by
    have part := (List.filter_sublist
      (p := fun other : WorkItem => other.id != work.id) (l := db.live)).map WorkItem.id
    have fewer := (part.append (List.Sublist.refl _)).nodup sound.apart
    rw [List.map_append, ← List.append_assoc, List.nodup_append]
    refine ⟨fewer, List.nodup_singleton _, ?_⟩
    intro left inOld right inNew same
    have isWork : right = work.id := List.mem_singleton.mp inNew
    rw [isWork] at same
    subst same
    rcases List.mem_append.mp inOld with inLive | inSessions
    · obtain ⟨other, kept, sameId⟩ := List.mem_map.mp inLive
      have apart := (List.mem_filter.mp kept).2
      rw [sameId, bne_self_eq_false] at apart
      cases apart
    · exact (List.nodup_append.mp sound.apart).2.2 _ (List.mem_map_of_mem member) _ inSessions rfl
  detectionIds := by
    have same : (db.sessions ++ [Session.begin work report completedAt]).flatMap (fun session =>
        detectionsIn session.rows) = db.sessions.flatMap fun session =>
          detectionsIn session.rows := by
      rw [List.flatMap_append]
      exact List.append_nil _
    unfold Database.detectionIds
    dsimp only
    rw [same]
    exact sound.detectionIds

end Closing

section Replacing

variable {db : Database} {tables after : Tables} {session next : Session}

/-- What a statement makes of its transaction; an identifier may be drawn for a detection. -/
structure Session.Steps (tables after : Tables) (session next : Session) : Prop where
  work : next.work = session.work
  runId : next.runId = session.runId
  drawn : after = { tables with nextId := after.nextId }
  later : tables.nextId ≤ after.nextId
  sound : next.Sound after
  detections : detectionsIn next.rows = detectionsIn session.rows ∨
    ∃ row : ReprocessedDetectionRow, row.id = tables.nextId ∧
      detectionsIn next.rows = detectionsIn session.rows ++ [row]

theorem drawn_extends (placed : tables.Placed) {later : Uuid} (low : tables.nextId ≤ later) :
    tables.Extends { tables with nextId := later } where
  placed := placed.moved ⟨rfl, rfl, rfl, rfl, rfl, low⟩ rfl rfl
  grows := Untouched.grows ⟨rfl, rfl, rfl, rfl, rfl, low⟩
  snapshots := List.prefix_refl _
  items := ⟨[], (List.append_nil _).symm, fun _ absent => nomatch absent⟩
  runs _ member := .inl member
  observations := rfl
  detections := rfl
  versionChanges := rfl

/-- The transactions with one of them replaced. -/
def replaceSession (session next : Session) (sessions : List Session) : List Session :=
  updateWhere (fun other => other.work.id == session.work.id) (fun _ => next) sessions

theorem replaceSession_map {κ : Type} {key : Session → κ} {sessions : List Session}
    (member : session ∈ sessions) (unique : (sessions.map fun session => session.work.id).Nodup)
    (same : key next = key session) :
    (replaceSession session next sessions).map key = sessions.map key := by
  unfold replaceSession updateWhere
  rw [List.map_map]
  apply List.map_congr_left
  intro other inSessions
  dsimp only [Function.comp_apply]
  split
  · rename_i chosen
    rw [eq_of_key_eq unique inSessions member (beq_iff_eq.mp chosen), same]
  · rfl

theorem Database.Sound.unique (sound : db.Sound) :
    (db.sessions.map fun session => session.work.id).Nodup :=
  (List.nodup_append.mp sound.apart).2.1

/-- The detections are those of before, and one more where one was written. -/
theorem replaceSession_detections {sessions : List Session} (member : session ∈ sessions)
    (unique : (sessions.map fun session => session.work.id).Nodup)
    {added : List ReprocessedDetectionRow}
    (detections : detectionsIn next.rows = detectionsIn session.rows ++ added) :
    ((replaceSession session next sessions).flatMap fun session => detectionsIn session.rows).Perm
      ((sessions.flatMap fun session => detectionsIn session.rows) ++ added) := by
  obtain ⟨before, behind, rfl⟩ := List.append_of_mem member
  have others : ∀ part : List Session, (∀ other ∈ part, other.work.id ≠ session.work.id) →
      replaceSession session next part = part := by
    intro part apart
    exact updateWhere_eq_self fun other inPart => beq_eq_false_iff_ne.mpr (apart other inPart)
  rw [List.map_append, List.map_cons, List.nodup_append, List.nodup_cons] at unique
  have left : replaceSession session next before = before := by
    apply others
    intro other inBefore same
    exact unique.2.2 _ (List.mem_map_of_mem inBefore) _ List.mem_cons_self same
  have right : replaceSession session next behind = behind := by
    apply others
    intro other inBehind same
    apply unique.2.1.1
    rw [← same]
    exact List.mem_map_of_mem (f := fun session : Session => session.work.id) inBehind
  have here : replaceSession session next (before ++ session :: behind) =
      before ++ next :: behind := by
    unfold replaceSession at left right ⊢
    rw [updateWhere_append, left]
    have cons : updateWhere (fun other : Session => other.work.id == session.work.id)
        (fun _ => next) (session :: behind) = next ::
          updateWhere (fun other => other.work.id == session.work.id) (fun _ => next) behind := by
      simp [updateWhere]
    rw [cons, right]
  rw [here, List.flatMap_append, List.flatMap_append, List.flatMap_cons, List.flatMap_cons,
    detections]
  simp only [List.append_assoc]
  apply List.Perm.append_left
  apply List.Perm.append_left
  exact List.perm_append_comm

theorem Database.Sound.detection_drawn (sound : db.Sound) :
    ∀ id ∈ db.detectionIds, id < db.tables.nextId := by
  intro id member
  obtain ⟨row, inRows, rfl⟩ := List.mem_map.mp member
  rcases List.mem_append.mp inRows with committed | open'
  · exact sound.tables.detectionsDrawn row committed
  · obtain ⟨session, inSessions, own⟩ := List.mem_flatMap.mp open'
    exact (sound.sessions session inSessions).detectionsDrawn row own

theorem Database.Sound.steps (sound : db.Sound) (member : session ∈ db.sessions)
    (steps : session.Steps db.tables after next) :
    ({ db with
      tables := after
      sessions := replaceSession session next db.sessions } : Database).Sound := by
  have extended : db.tables.Extends after := by
    rw [steps.drawn]
    exact drawn_extends sound.tables.keyed.placed steps.later
  have kept := sound.extended extended
  have detections : after.detections = db.tables.detections := extended.detections
  constructor
  · exact kept.tables
  · exact kept.live
  · intro other inSessions
    rcases mem_updateWhere_cases inSessions with ⟨old, _⟩ | ⟨_, _, _, rfl⟩
    · exact kept.sessions other old
    · exact steps.sound
  · dsimp only
    have same : (replaceSession session next db.sessions).map (fun session => session.work.id) =
        db.sessions.map fun session => session.work.id :=
      replaceSession_map member sound.unique (congrArg WorkItem.id steps.work)
    rw [same]
    exact sound.apart
  · unfold Database.detectionIds
    dsimp only
    rw [detections]
    rcases steps.detections with same | ⟨row, id, added⟩
    · have perm := replaceSession_detections member sound.unique
        (same.trans (List.append_nil _).symm)
      rw [List.append_nil] at perm
      exact ((perm.append_left _).map _).nodup_iff.mpr sound.detectionIds
    · have perm := replaceSession_detections member sound.unique added
      rw [((perm.append_left _).map _).nodup_iff, ← List.append_assoc]
      apply nodup_map_concat sound.detectionIds
      intro old inOld same
      have drawn := sound.detection_drawn old.id (List.mem_map_of_mem inOld)
      rw [same, id] at drawn
      exact lt_irrefl _ drawn

end Replacing

end TechAtlas.Reprocessing
