import TechAtlas.Reprocessing.Finality

set_option autoImplicit false

/- What the items of a run leave behind: a result for each success, and for nothing else. -/
namespace TechAtlas.Reprocessing

open Library TechAtlas.Detector TechAtlas.Store TechAtlas.Storage

section Promises

/-- The statements before the counting that are still to be executed. -/
def Phase.rest : Phase → List RowStatement
  | .writing rest => rest
  | _ => []

/-- A transaction that makes its item succeed has an observation, or still inserts it. -/
def Session.Observes (session : Session) : Prop :=
  ∀ change : ItemChange, change.isSuccess = true →
    (.updateItem change ∈ session.phase.rest ∨ .item session.work.id change ∈ session.rows) →
      observationsIn session.rows ≠ [] ∨ ∃ status, .insertObservation status ∈ session.phase.rest

variable {tables after : Tables} {session next : Session} {statement : RowStatement}
  {rest : List RowStatement}

theorem begin_observes (work : WorkItem) (report : Report) (completedAt : Time) :
    (Session.begin work report completedAt).Observes := by
  intro change success listed
  cases report with
  | succeeded evaluation => exact .inr ⟨_, List.mem_cons_self⟩
  | failed summary retryAt terminal =>
      rcases listed with inStatements | inRows
      · change RowStatement.updateItem change ∈ [RowStatement.lockItem, RowStatement.updateItem _]
          at inStatements
        rw [List.mem_pair] at inStatements
        rcases inStatements with same | same
        · cases same
        · cases same
          split at success <;> cases success
      · cases inRows

/-- A statement that is no observation keeps the promise, if it writes what it says. -/
theorem Session.Observes.advance (observes : session.Observes)
    (phase : session.phase = .writing (statement :: rest)) (nextPhase : next.phase = .writing rest)
    (work : next.work = session.work)
    (noObservation : ∀ status, statement ≠ .insertObservation status)
    (rows : next.rows = session.rows ∨ ∃ write, next.rows = session.rows ++ [write] ∧
      ∀ itemId change, write = .item itemId change → statement = .updateItem change) :
    next.Observes := by
  have observations : observationsIn session.rows ≠ [] → observationsIn next.rows ≠ [] := by
    intro some
    rcases rows with same | ⟨write, same, _⟩
    · rw [same]
      exact some
    · rw [same, observationsIn_append]
      exact List.append_ne_nil_of_left_ne_nil some _
  intro change success listed
  have earlier : RowStatement.updateItem change ∈ statement :: rest ∨
      RowWrite.item session.work.id change ∈ session.rows := by
    rcases listed with inRest | inRows
    · rw [nextPhase] at inRest
      exact .inl (List.mem_cons_of_mem statement inRest)
    · rw [work] at inRows
      rcases rows with same | ⟨write, same, isUpdate⟩
      · rw [same] at inRows
        exact .inr inRows
      · rw [same] at inRows
        rcases List.mem_append.mp inRows with old | new
        · exact .inr old
        · rw [isUpdate _ _ (List.mem_singleton.mp new).symm]
          exact .inl List.mem_cons_self
  have promised := observes change success (by rw [phase]; exact earlier)
  rw [phase] at promised
  rcases promised with some | ⟨status, inRest⟩
  · exact .inl (observations some)
  · rcases List.mem_cons.mp inRest with same | later
    · exact absurd same.symm (noObservation status)
    · rw [nextPhase]
      exact .inr ⟨status, later⟩

theorem executeRow_observes (observes : session.Observes)
    (phase : session.phase = .writing (statement :: rest))
    (success : session.executeRow tables rest statement = some (after, next)) : next.Observes := by
  cases statement with
  | lockItem =>
      obtain ⟨row, _, same⟩ := Option.map_eq_some_iff.mp success
      cases same
      exact observes.advance phase rfl rfl (fun _ same => nomatch same) (.inl rfl)
  | insertObservation status =>
      obtain ⟨_, _, same⟩ := Option.map_eq_some_iff.mp success
      cases same
      intro _ _ _
      left
      change observationsIn (session.rows ++ [_]) ≠ []
      rw [observationsIn_append]
      exact List.append_ne_nil_of_right_ne_nil _ (List.cons_ne_nil _ _)
  | insertDetection detection technologyVersion =>
      unfold Session.executeRow at success
      dsimp only at success
      split at success
      next =>
        cases success
        exact observes.advance phase rfl rfl (fun _ same => nomatch same)
          (.inr ⟨_, rfl, fun _ _ same => nomatch same⟩)
      next => cases success
  | insertEvidence evidence =>
      unfold Session.executeRow at success
      dsimp only at success
      split at success
      next =>
        cases success
        exact observes.advance phase rfl rfl (fun _ same => nomatch same)
          (.inr ⟨_, rfl, fun _ _ same => nomatch same⟩)
      next => cases success
  | updateItem change =>
      unfold Session.executeRow at success
      dsimp only at success
      split at success
      next =>
        cases success
        exact observes.advance phase rfl rfl (fun _ same => nomatch same)
          (.inr ⟨_, rfl, fun _ _ same => by cases same; rfl⟩)
      next =>
        cases success
        exact observes.advance phase rfl rfl (fun _ same => nomatch same) (.inl rfl)

/-- The statements of `refresh_run` leave the rows alone. -/
theorem Session.Observes.rephased (observes : session.Observes)
    (done : session.phase.rest = []) {later : Phase} (laterDone : later.rest = []) :
    ({ session with phase := later } : Session).Observes := by
  intro change success listed
  dsimp only at listed ⊢
  rw [laterDone] at listed ⊢
  have promised := observes change success
  rw [done] at promised
  exact promised listed

theorem Session.Progress.rows (progress : session.Progress) {counts : RunCounts}
    (counted : session.phase.counts = some counts) : ∃ front change,
      session.rows = front ++ [.item session.work.id change] ∧
        (∀ write ∈ front, write.isItem = false) ∧ (change.isSuccess = true ∨ front = []) := by
  unfold Session.Progress at progress
  cases phase : session.phase with
  | writing rest =>
      rw [phase] at counted
      cases counted
  | refreshing _ =>
      rw [phase] at progress
      exact progress
  | «deriving» _ =>
      rw [phase] at progress
      exact progress
  | committing _ _ =>
      rw [phase] at progress
      exact progress

end Promises

section Recording

variable {db : Database} {tables after : Tables} {session : Session}

/-- An item has succeeded exactly if there is an observation for it. -/
structure Tables.Recorded (tables : Tables) : Prop where
  observed : ∀ item ∈ tables.items, item.status = .succeeded →
    ∃ row ∈ tables.observations, row.pair = (item.runId, item.crawlSnapshotId)
  succeeded : ∀ row ∈ tables.observations, ∃ item ∈ tables.items,
    row.pair = (item.runId, item.crawlSnapshotId) ∧ item.status = .succeeded
  detected : ∀ row ∈ tables.detections, ∃ item ∈ tables.items,
    row.pair = (item.runId, item.crawlSnapshotId) ∧ item.status = .succeeded

theorem Tables.Recorded.extended (recorded : tables.Recorded) (extended : tables.Extends after) :
    after.Recorded := by
  obtain ⟨added, items, new⟩ := extended.items
  have kept : ∀ {pair : Uuid × Uuid},
      (∃ item ∈ tables.items, pair = (item.runId, item.crawlSnapshotId) ∧
        item.status = .succeeded) →
      ∃ item ∈ after.items, pair = (item.runId, item.crawlSnapshotId) ∧
        item.status = .succeeded := by
    intro pair some
    obtain ⟨item, member, rest⟩ := some
    refine ⟨item, ?_, rest⟩
    rw [items]
    exact List.mem_append_left _ member
  constructor
  · rw [items, extended.observations]
    intro item member status
    rcases List.mem_append.mp member with old | fresh
    · exact recorded.observed item old status
    · rw [(new item fresh).2] at status
      cases status
  · rw [extended.observations]
    exact fun row member => kept (recorded.succeeded row member)
  · rw [extended.detections]
    exact fun row member => kept (recorded.detected row member)

theorem Tables.Recorded.claimed {now : Time} {row : WorkItemRow} {work : WorkItem}
    (recorded : tables.Recorded) (claimed : Claimed tables after now row work)
    (unique : (tables.items.map WorkItemRow.id).Nodup) : after.Recorded := by
  have kept : ∀ {pair : Uuid × Uuid},
      (∃ item ∈ tables.items, pair = (item.runId, item.crawlSnapshotId) ∧
        item.status = .succeeded) →
      ∃ item ∈ after.items, pair = (item.runId, item.crawlSnapshotId) ∧
        item.status = .succeeded := by
    intro pair some
    obtain ⟨item, member, place, status⟩ := some
    refine ⟨item, ?_, place, status⟩
    rw [claimed.same]
    apply mem_updateWhere_of_not member
    rw [beq_eq_false_iff_ne]
    intro same
    have equal := eq_of_key_eq unique member claimed.member same
    rw [equal, claimed.queued] at status
    cases status
  have observations : after.observations = tables.observations := by
    rw [claimed.same]
  have detections : after.detections = tables.detections := by
    rw [claimed.same]
  constructor
  · rw [claimed.same]
    intro item member status
    rcases mem_updateWhere_cases member with ⟨old, _⟩ | ⟨earlier, _, _, rfl⟩
    · exact recorded.observed item old status
    · cases status
  · rw [observations]
    exact fun row member => kept (recorded.succeeded row member)
  · rw [detections]
    exact fun row member => kept (recorded.detected row member)

theorem ItemChange.apply_succeeded {change : ItemChange} {item : WorkItemRow} :
    (change.apply item).status = .succeeded ↔ change.isSuccess = true := by
  cases change with
  | succeeded completedAt => exact ⟨fun _ => rfl, fun _ => rfl⟩
  | deadLettered summary completedAt =>
      exact ⟨fun same => (nomatch same), fun same => (nomatch same)⟩
  | requeued summary retryAt completedAt =>
      exact ⟨fun same => (nomatch same), fun same => (nomatch same)⟩

/-- The item of a commit, and what the commit says of it. -/
theorem Session.Sound.committed_item {counts : RunCounts} {changes : List VersionChangeRow}
    (sound : session.Sound tables) (tablesSound : tables.Sound) (observes : session.Observes)
    (phase : session.phase = .committing counts changes) :
    ∃ own ∈ (session.view tables).items,
      (own.runId, own.crawlSnapshotId) = (session.work.runId, session.work.snapshotId) ∧
      (own.status = .succeeded → observationsIn session.rows ≠ []) ∧
      (own.status ≠ .succeeded →
        observationsIn session.rows = [] ∧ detectionsIn session.rows = []) ∧
      ∀ item ∈ (session.view tables).items, item = own ∨ item ∈ tables.items ∧
        (item.runId, item.crawlSnapshotId) ≠ (session.work.runId, session.work.snapshotId) := by
  obtain ⟨held, heldIn, sameId, sameRun, sameSnapshot, _⟩ := sound.held.item
  obtain ⟨front, change, rows, plain, kind⟩ := sound.progress.rows (by rw [phase]; rfl)
  have status : (changeIn session.rows held).status = .succeeded ↔ change.isSuccess = true := by
    rw [rows, changeIn_append_item _ change plain]
    exact ItemChange.apply_succeeded
  obtain ⟨_, run, snapshot⟩ := changeIn_keeps session.rows held
  refine ⟨changeIn session.rows held, ?_, ?_, ?_, ?_, ?_⟩
  · rw [view_of_committing sound phase]
    exact mem_updateWhere_of_selected heldIn (beq_iff_eq.mpr sameId)
  · rw [run, snapshot, sameRun, sameSnapshot]
  · intro succeeded
    have inRows : RowWrite.item session.work.id change ∈ session.rows := by
      rw [rows]
      exact List.mem_append_right _ List.mem_cons_self
    rcases observes change (status.mp succeeded) (.inr inRows) with some | ⟨_, absent⟩
    · exact some
    · rw [phase] at absent
      cases absent
  · intro failed
    rcases kind with success | none
    · exact absurd (status.mpr success) failed
    · rw [rows, none]
      exact ⟨rfl, rfl⟩
  · rw [view_of_committing sound phase]
    intro item member
    rcases mem_updateWhere_cases member with ⟨old, apart⟩ | ⟨earlier, inTable, chosen, rfl⟩
    · refine .inr ⟨old, ?_⟩
      rw [← sameRun, ← sameSnapshot]
      intro same
      have equal := eq_of_key_eq tablesSound.keyed.placed.pairs old heldIn same
      rw [equal, sameId, beq_self_eq_true] at apart
      cases apart
    · have equal := eq_of_key_eq tablesSound.keyed.placed.ids inTable heldIn
        ((beq_iff_eq.mp chosen).trans sameId.symm)
      rw [equal]
      exact .inl rfl

theorem Tables.Recorded.commit {counts : RunCounts} {changes : List VersionChangeRow}
    (recorded : tables.Recorded) (sound : session.Sound tables) (tablesSound : tables.Sound)
    (observes : session.Observes) (phase : session.phase = .committing counts changes) :
    (session.view tables).Recorded := by
  obtain ⟨own, inView, place, done, undone, others⟩ :=
    sound.committed_item tablesSound observes phase
  obtain ⟨held, heldIn, sameId, sameRun, sameSnapshot, running⟩ := sound.held.item
  have view := view_of_committing sound phase
  have observations : (session.view tables).observations =
      tables.observations ++ observationsIn session.rows := by
    rw [view]
  have detections : (session.view tables).detections =
      tables.detections ++ detectionsIn session.rows := by
    rw [view]
  have kept : ∀ {pair : Uuid × Uuid},
      (∃ item ∈ tables.items, pair = (item.runId, item.crawlSnapshotId) ∧
        item.status = .succeeded) →
      ∃ item ∈ (session.view tables).items, pair = (item.runId, item.crawlSnapshotId) ∧
        item.status = .succeeded := by
    intro pair some
    obtain ⟨item, member, samePlace, status⟩ := some
    refine ⟨item, ?_, samePlace, status⟩
    rw [view]
    apply mem_updateWhere_of_not member
    rw [beq_eq_false_iff_ne]
    intro same
    have equal := eq_of_key_eq tablesSound.keyed.placed.ids member heldIn (same.trans sameId.symm)
    rw [equal, running] at status
    cases status
  constructor
  · intro item member status
    rcases others item member with rfl | ⟨old, _⟩
    · obtain ⟨row, inRows⟩ := List.exists_mem_of_ne_nil _ (done status)
      refine ⟨row, ?_, ?_⟩
      · rw [observations]
        exact List.mem_append_right _ inRows
      · rw [sound.observation_pair inRows, place]
    · obtain ⟨row, inTable, pair⟩ := recorded.observed item old status
      refine ⟨row, ?_, pair⟩
      rw [observations]
      exact List.mem_append_left _ inTable
  · rw [observations]
    intro row member
    rcases List.mem_append.mp member with old | new
    · exact kept (recorded.succeeded row old)
    · refine ⟨own, inView, (sound.observation_pair new).trans place.symm, ?_⟩
      by_contra failed
      rw [(undone failed).1] at new
      cases new
  · rw [detections]
    intro row member
    rcases List.mem_append.mp member with old | new
    · exact kept (recorded.detected row old)
    · refine ⟨own, inView, (sound.detection_pair new).trans place.symm, ?_⟩
      by_contra failed
      rw [(undone failed).2] at new
      cases new

end Recording

section Runs

variable {db : Database} {session : Session}

/-- What is committed is recorded, and what is open will be. -/
structure Database.Recorded (db : Database) : Prop where
  sound : db.Sound
  tables : db.tables.Recorded
  sessions : ∀ session ∈ db.sessions, session.Observes

theorem execute_observes {after : Tables} {next : Session} (observes : session.Observes)
    (success : session.execute db.tables = some (after, some next)) : next.Observes := by
  unfold Session.execute at success
  cases phase : session.phase with
  | writing statements =>
      rw [phase] at success
      have done : ∀ later : Phase, statements = [] → later.rest = [] →
          ({ session with phase := later } : Session).Observes := by
        intro later none laterDone
        exact observes.rephased (by rw [phase, none]; rfl) laterDone
      cases statements with
      | nil =>
          cases success
          exact done _ rfl rfl
      | cons statement rest =>
          obtain ⟨⟨_, _⟩, executed, same⟩ := Option.map_eq_some_iff.mp success
          cases same
          exact executeRow_observes observes phase executed
  | refreshing counts =>
      rw [phase] at success
      obtain ⟨_, _, same⟩ := Option.map_eq_some_iff.mp success
      cases same
      apply observes.rephased (by rw [phase]; rfl)
      split <;> rfl
  | «deriving» counts =>
      rw [phase] at success
      cases success
      exact observes.rephased (by rw [phase]; rfl) rfl
  | committing counts changes =>
      rw [phase] at success
      cases success

/-- A statement other than the commit leaves the committed rows alone. -/
theorem Session.Steps.recorded {tables after : Tables} {next : Session}
    (steps : session.Steps tables after next) (recorded : tables.Recorded) : after.Recorded := by
  rw [steps.drawn]
  exact ⟨recorded.observed, recorded.succeeded, recorded.detected⟩

theorem Database.Recorded.advance (recorded : db.Recorded) (member : session ∈ db.sessions) :
    (db.advance session).Recorded := by
  have sound := recorded.sound
  have advanced := advance_advanced sound member
  have own := recorded.sessions session member
  refine ⟨sound.advanced member advanced, ?_, ?_⟩
  · generalize db.advance session = later at advanced
    cases advanced with
    | rolledBack _ => exact recorded.tables
    | counted _ => exact recorded.tables
    | stepped after next steps _ _ _ => exact steps.recorded recorded.tables
    | committed counts changes phase =>
        exact recorded.tables.commit (sound.sessions session member) sound.tables own phase
  · have others : ∀ other ∈ (db.close session.work.id db.tables).sessions, other.Observes :=
      fun other inSessions => recorded.sessions other (mem_close_sessions.mp inSessions).1
    clear advanced
    unfold Database.advance
    split
    next => exact others
    next => exact others
    next after next success =>
      intro other inSessions
      rcases mem_updateWhere_cases inSessions with ⟨old, _⟩ | ⟨_, _, _, rfl⟩
      · exact recorded.sessions other old
      · exact execute_observes own success

theorem Database.Recorded.step (recorded : db.Recorded) (action : Action) :
    (db.step action).Recorded := by
  have sound := recorded.sound
  cases action with
  | publish technologyId rule =>
      have extended := publish_extends sound.tables.keyed.placed technologyId rule
      exact ⟨sound.extended extended, recorded.tables.extended extended, recorded.sessions⟩
  | capture snapshot artifact =>
      have extended := capture_extends sound.tables.keyed.placed snapshot artifact
      exact ⟨sound.extended extended, recorded.tables.extended extended, recorded.sessions⟩
  | start call =>
      refine ⟨start_sound sound call, ?_, recorded.sessions⟩
      change (db.tables.step (.start call)).Recorded
      rcases start_extends sound.tables call with same | extended
      · rw [same]
        exact recorded.tables
      · exact recorded.tables.extended extended
  | claim now =>
      unfold Database.step
      dsimp only
      split
      next after work success =>
        obtain ⟨row, claimed⟩ := claim_claimed success
        exact ⟨claim_sound sound success,
          recorded.tables.claimed claimed sound.tables.keyed.placed.ids, recorded.sessions⟩
      next => exact recorded
  | lose itemId =>
      refine ⟨lose_sound sound itemId, recorded.tables, ?_⟩
      exact fun other inSessions => recorded.sessions other (List.mem_filter.mp inSessions).1
  | begin itemId report completedAt =>
      unfold Database.step
      dsimp only
      split
      next => exact recorded
      next work found =>
        obtain ⟨member, isItem⟩ := find?_eq_some_mem found
        rw [← beq_iff_eq.mp isItem]
        refine ⟨begin_sound sound member report completedAt, recorded.tables, ?_⟩
        intro session inSessions
        rcases List.mem_append.mp inSessions with old | new
        · exact recorded.sessions session old
        · rw [List.mem_singleton.mp new]
          exact begin_observes work report completedAt
  | execute itemId =>
      unfold Database.step
      dsimp only
      split
      next => exact recorded
      next session found =>
        split
        · exact recorded
        · exact recorded.advance (find?_eq_some_mem found).1

theorem after_db_recorded (kinds : List String) (actions : List Action) :
    (Database.after kinds actions).Recorded := by
  unfold Database.after
  refine run_invariant (P := Database.Recorded) (fun _ action recorded => recorded.step action) _
    actions ?_
  exact ⟨empty_db_sound kinds, ⟨fun _ absent => (nomatch absent), fun _ absent => (nomatch absent),
    fun _ absent => (nomatch absent)⟩, fun _ absent => (nomatch absent)⟩

/-- Among any items there are as many observations as successes, and no more detections. -/
theorem Tables.Recorded.counted {tables : Tables} (recorded : tables.Recorded)
    (keyed : tables.Keyed) (chosen : Uuid × Uuid → Bool) :
    (tables.observations.countP fun row => chosen row.pair) =
      (tables.items.countP fun item => chosen (item.runId, item.crawlSnapshotId) &&
        item.status == .succeeded) ∧
    (tables.detections.countP fun row => chosen row.pair) ≤
      tables.items.countP fun item => chosen (item.runId, item.crawlSnapshotId) &&
        item.status == .succeeded := by
  have selected : ∀ {pair : Uuid × Uuid}, chosen pair = true →
      (∃ item ∈ tables.items, pair = (item.runId, item.crawlSnapshotId) ∧
        item.status = .succeeded) →
      ∃ item ∈ tables.items, (chosen (item.runId, item.crawlSnapshotId) &&
        item.status == .succeeded) = true ∧ (item.runId, item.crawlSnapshotId) = pair := by
    intro pair isChosen some
    obtain ⟨item, member, rfl, status⟩ := some
    refine ⟨item, member, ?_, rfl⟩
    rw [isChosen, status]
    rfl
  refine ⟨le_antisymm ?_ ?_, ?_⟩
  · apply countP_le_of_keys keyed.observedOnce
    exact fun row member isChosen => selected isChosen (recorded.succeeded row member)
  · apply countP_le_of_keys keyed.placed.pairs
    intro item member isChosen
    rw [Bool.and_eq_true, beq_iff_eq] at isChosen
    obtain ⟨row, inTable, pair⟩ := recorded.observed item member isChosen.2
    refine ⟨row, inTable, ?_, pair⟩
    rw [pair]
    exact isChosen.1
  · apply countP_le_of_keys keyed.detectedOnce
    exact fun row member isChosen => selected isChosen (recorded.detected row member)

/-- Whatever the interleaving, a run has one observation for each item that has succeeded,
none for any other item, and a detection only beside an observation. -/
theorem recorded_once (kinds : List String) (actions : List Action) (runId : Uuid) :
    ((Database.after kinds actions).tables.observations.countP fun row => row.runId == runId) =
      ((Database.after kinds actions).tables.countItems runId).succeeded ∧
    ((Database.after kinds actions).tables.detections.countP fun row => row.runId == runId) ≤
      ((Database.after kinds actions).tables.countItems runId).succeeded ∧
    ∀ item ∈ (Database.after kinds actions).tables.items, item.runId = runId →
      ((Database.after kinds actions).tables.observations.countP fun row =>
          row.pair == (item.runId, item.crawlSnapshotId)) =
        (if item.status = .succeeded then 1 else 0) ∧
      ((Database.after kinds actions).tables.detections.countP fun row =>
          row.pair == (item.runId, item.crawlSnapshotId)) ≤
        (if item.status = .succeeded then 1 else 0) := by
  have recorded := after_db_recorded kinds actions
  generalize Database.after kinds actions = db at recorded
  have keyed := recorded.sound.tables.keyed
  have ofRun : (db.tables.countItems runId).succeeded = db.tables.items.countP fun item =>
      item.runId == runId && item.status == .succeeded := by
    unfold Tables.countItems
    dsimp only
    rw [List.countP_filter]
    apply List.countP_congr
    intro item _
    rw [Bool.and_comm]
  obtain ⟨observed, detected⟩ := recorded.tables.counted keyed fun pair => pair.1 == runId
  refine ⟨?_, ?_, ?_⟩
  · rw [ofRun]
    exact observed
  · rw [ofRun]
    exact detected
  · intro item member _
    obtain ⟨own, few⟩ := recorded.tables.counted keyed fun pair =>
      pair == (item.runId, item.crawlSnapshotId)
    have alone : (db.tables.items.countP fun other =>
        (other.runId, other.crawlSnapshotId) == (item.runId, item.crawlSnapshotId) &&
          other.status == .succeeded) = if item.status = .succeeded then 1 else 0 := by
      have single : (db.tables.items.filter fun other =>
          (other.runId, other.crawlSnapshotId) == (item.runId, item.crawlSnapshotId)) = [item] := by
        rw [filter_key_eq_toList keyed.placed.pairs,
          (find?_key_eq_some keyed.placed.pairs).mpr ⟨member, rfl⟩]
        rfl
      have swapped : ∀ other : WorkItemRow,
          ((other.runId, other.crawlSnapshotId) == (item.runId, item.crawlSnapshotId) &&
            other.status == .succeeded) = (other.status == .succeeded &&
              (other.runId, other.crawlSnapshotId) == (item.runId, item.crawlSnapshotId)) :=
        fun other => Bool.and_comm _ _
      rw [funext swapped, ← List.countP_filter, single, List.countP_singleton]
      by_cases succeeded : item.status = .succeeded
      · rw [if_pos succeeded, if_pos (beq_iff_eq.mpr succeeded)]
      · rw [if_neg succeeded, if_neg (fun same => succeeded (beq_iff_eq.mp same))]
    rw [← alone]
    exact ⟨own, few⟩

end Runs

end TechAtlas.Reprocessing
