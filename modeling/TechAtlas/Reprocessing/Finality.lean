import TechAtlas.Reprocessing.Counting

set_option autoImplicit false

/- A finished run stays as it is, whatever the workers do afterwards. -/
namespace TechAtlas.Reprocessing

open Library TechAtlas.Detector TechAtlas.Store TechAtlas.Storage

section Steps

variable {db : Database} {tables after : Tables} {own : RunRow} {runId : Uuid}

theorem SameRun.refl (runId : Uuid) (tables : Tables) : SameRun runId tables tables :=
  ⟨rfl, rfl, rfl, rfl, fun _ _ found => found, fun _ _ found => found⟩

theorem SameRun.trans {later : Tables} (first : SameRun runId tables after)
    (second : SameRun runId after later) : SameRun runId tables later where
  items := second.items.trans first.items
  observations := second.observations.trans first.observations
  detections := second.detections.trans first.detections
  changes := second.changes.trans first.changes
  snapshots id row found := second.snapshots id row (first.snapshots id row found)
  versions id row found := second.versions id row (first.versions id row found)

/-- A run's row and all that its results are read from. -/
structure Frozen (own : RunRow) (tables after : Tables) : Prop where
  run : own ∈ after.runs
  rows : SameRun own.id tables after

theorem Frozen.refl (member : own ∈ tables.runs) : Frozen own tables tables :=
  ⟨member, SameRun.refl own.id tables⟩

theorem Tables.Extends.frozen (extended : tables.Extends after) (sound : tables.Sound)
    (member : own ∈ tables.runs) : Frozen own tables after := by
  have drawn := sound.runDrawn member
  refine ⟨?_, extended.sameRun drawn⟩
  have inIdentities : own.identity ∈ after.runIdentities :=
    extended.grows.runs.subset (List.mem_map_of_mem member)
  obtain ⟨other, inRuns, same⟩ := List.mem_map.mp inIdentities
  have keys := sound.keyed.placed.formed.keys
  rw [Tables.runIdentities, List.map_map] at keys
  rcases extended.runs other inRuns with old | ⟨id, _⟩
  · have key : other.idempotencyKey = own.idempotencyKey :=
      congrArg (fun identity => identity.2.1) same
    rw [← eq_of_key_eq keys old member key]
    exact inRuns
  · have sameId : other.id = own.id := congrArg Prod.fst same
    rw [← sameId, id] at drawn
    exact absurd drawn (lt_irrefl _)

theorem Claimed.frozen {now : Time} {row : WorkItemRow} {work : WorkItem}
    (claimed : Claimed tables after now row work) (sound : tables.Sound)
    (member : own ∈ tables.runs) (finished : own.status.isFinished = true) :
    Frozen own tables after := by
  have other : own.id ≠ row.runId := by
    intro same
    have done := (sound.finished own member finished).done row claimed.member same.symm
    rw [claimed.queued] at done
    cases done
  refine ⟨?_, claimed.sameRun sound.keyed.placed.ids other⟩
  rw [claimed.same]
  apply mem_updateWhere_of_not member
  rw [beq_eq_false_iff_ne.mpr other, Bool.false_and]

theorem Database.Sound.advanced_frozen {session : Session} {next : Database} (sound : db.Sound)
    (inSessions : session ∈ db.sessions) (advanced : db.Advanced session next)
    (member : own ∈ db.tables.runs) (finished : own.status.isFinished = true) :
    Frozen own db.tables next.tables := by
  cases advanced with
  | rolledBack _ => exact Frozen.refl member
  | counted _ => exact Frozen.refl member
  | stepped after next steps _ _ _ =>
      have extended : db.tables.Extends after := by
        rw [steps.drawn]
        exact drawn_extends sound.tables.keyed.placed steps.later
      exact extended.frozen sound.tables member
  | committed counts changes phase =>
      have held := sound.sessions session inSessions
      have other : own.id ≠ session.runId := by
        intro same
        have unfinished := held.held.unfinished sound.tables member (same.trans held.runId)
        rw [finished] at unfinished
        cases unfinished
      constructor
      · change own ∈ (session.view db.tables).runs
        rw [view_of_committing held phase]
        exact mem_updateWhere_of_not member (beq_eq_false_iff_ne.mpr other)
      · exact view_sameRun held sound.tables phase (committing_changes_runId held phase) other

theorem step_frozen (sound : db.Sound) (action : Action) (member : own ∈ db.tables.runs)
    (finished : own.status.isFinished = true) : Frozen own db.tables (db.step action).tables := by
  cases action with
  | publish technologyId rule =>
      exact (publish_extends sound.tables.keyed.placed technologyId rule).frozen sound.tables member
  | capture snapshot artifact =>
      exact (capture_extends sound.tables.keyed.placed snapshot artifact).frozen sound.tables member
  | start call =>
      change Frozen own db.tables (db.tables.step (.start call))
      rcases start_extends sound.tables call with same | extended
      · rw [same]
        exact Frozen.refl member
      · exact extended.frozen sound.tables member
  | claim now =>
      unfold Database.step
      dsimp only
      split
      next after work success =>
        obtain ⟨row, claimed⟩ := claim_claimed success
        exact claimed.frozen sound.tables member finished
      next => exact Frozen.refl member
  | lose itemId => exact Frozen.refl member
  | begin itemId report completedAt =>
      unfold Database.step
      dsimp only
      split
      next => exact Frozen.refl member
      next => exact Frozen.refl member
  | execute itemId =>
      unfold Database.step
      dsimp only
      split
      next => exact Frozen.refl member
      next session found =>
        split
        · exact Frozen.refl member
        · have inSessions := (find?_eq_some_mem found).1
          exact sound.advanced_frozen inSessions (advance_advanced sound inSessions) member finished

end Steps

section Runs

theorem after_db_sound (kinds : List String) (actions : List Action) :
    (Database.after kinds actions).Sound := by
  unfold Database.after
  exact run_invariant (P := Database.Sound) (fun _ action sound => sound.step action) _ actions
    (empty_db_sound kinds)

theorem run_frozen {db : Database} {own : RunRow} (later : List Action) (sound : db.Sound)
    (member : own ∈ db.tables.runs) (finished : own.status.isFinished = true) :
    Frozen own db.tables (run Database.step db later).tables := by
  induction later generalizing db with
  | nil => exact Frozen.refl member
  | cons action rest ih =>
      have first := step_frozen sound action member finished
      have others := ih (sound.step action) first.run
      exact ⟨others.run, first.rows.trans others.rows⟩

/-- Whatever the interleaving, a run that reads as finished is finalized, and neither its row
nor what it was derived from ever changes again. -/
theorem finished_run_final (kinds : List String) (before later : List Action) {own : RunRow}
    (member : own ∈ (Database.after kinds before).tables.runs)
    (finished : own.status.isFinished = true) :
    (Database.after kinds before).tables.Finalized own ∧
      (Database.after kinds (before ++ later)).tables.Finalized own ∧
      Frozen own (Database.after kinds before).tables (Database.after kinds (before ++ later)).tables := by
  have early := after_db_sound kinds before
  have late := after_db_sound kinds (before ++ later)
  have frozen : Frozen own (Database.after kinds before).tables
      (Database.after kinds (before ++ later)).tables := by
    unfold Database.after
    rw [run_append]
    exact run_frozen later early member finished
  exact ⟨(early.tables.finished own member finished).finalized early.tables.keyed,
    (late.tables.finished own frozen.run finished).finalized late.tables.keyed, frozen⟩

/-- After the orderly replay another run over the same snapshots is started and worked on. -/
def laterRun : List Action :=
  [ .start {
      ruleSlug := "shopify".toList
      ruleVersion := 1
      idempotencyKey := "again".toList
      actorSubject := "operator".toList
      now := 10 },
    .claim 11,
    .begin 7 (.succeeded nothingFound) 12 ] ++ List.replicate 5 (.execute 7)

theorem orderlyReplay_stays_finished : ∃ own ∈ (Database.after replayKinds orderlyReplay).tables.runs,
    own.status = .partialFailed ∧
      Frozen own (Database.after replayKinds orderlyReplay).tables
        (Database.after replayKinds (orderlyReplay ++ laterRun)).tables := by
  have found : ∃ own ∈ (Database.after replayKinds orderlyReplay).tables.runs,
      own.status = .partialFailed := by
    decide +kernel
  obtain ⟨own, member, status⟩ := found
  refine ⟨own, member, status, (finished_run_final replayKinds orderlyReplay laterRun member ?_).2.2⟩
  rw [status]
  rfl

end Runs

end TechAtlas.Reprocessing
