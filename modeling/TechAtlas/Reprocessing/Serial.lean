import TechAtlas.Reprocessing.Results

set_option autoImplicit false

/- A transaction whose statements no other one interrupts is the record call as one step. -/
namespace TechAtlas.Reprocessing

open Library TechAtlas.Detector TechAtlas.Store TechAtlas.Storage

section Meaning

/-- The record call of a report, at once. -/
def Report.record (tables : Tables) (work : WorkItem) (completedAt : Time) :
    Report → Option Tables
  | .succeeded evaluation => recordReprocessingSuccess tables work evaluation completedAt
  | .failed summary retryAt terminal =>
      recordReprocessingFailure tables work.id summary retryAt terminal completedAt

/-- What a record call works on: the tables as it sees them and its local variables. -/
structure Recording where
  tables : Tables
  runId : Uuid
  detectionId : Uuid

/-- A statement on the tables that the record call sees. -/
def RowStatement.effect (work : WorkItem) (recording : Recording) : RowStatement → Option Recording
  | .lockItem =>
      (recording.tables.items.find? fun row => row.id == work.id).map fun row =>
        { recording with runId := row.runId }
  | .insertObservation status =>
      (recording.tables.insertObservation work status).map fun after =>
        { recording with tables := after }
  | .insertDetection detection technologyVersion =>
      (insertChecked admitsReprocessed
        (detectionRow recording.tables.nextId work detection technologyVersion)
        recording.tables.detections).map fun rows =>
          { recording with
            tables := { recording.tables with
              detections := rows
              nextId := recording.tables.nextId + 1 }
            detectionId := recording.tables.nextId }
  | .insertEvidence evidence =>
      (Reprocessing.insertEvidence recording.detectionId recording.tables.evidence evidence).map
        fun rows => { recording with tables := { recording.tables with evidence := rows } }
  | .updateItem change =>
      some { recording with tables := recording.tables.updateItem work.id change.apply }

/-- What is left of a transaction, at once. -/
def Session.finish (tables : Tables) (session : Session) : Option Tables :=
  match session.phase with
  | .writing rest =>
      (rest.foldlM (RowStatement.effect session.work)
        ⟨session.view tables, session.runId, session.detectionId⟩).bind fun recording =>
          refreshRun recording.tables recording.runId session.completedAt
  | .refreshing counts =>
      ((session.view tables).updateRun session.runId counts session.completedAt).map fun after =>
        if counts.pending = 0 then after.insertVersionChanges session.runId else after
  | .deriving _ => some ((session.view tables).insertVersionChanges session.runId)
  | .committing _ _ => some (session.view tables)

/-- The statements that a transaction still has to execute, with the commit. -/
def Phase.left : Phase → Nat
  | .writing rest => rest.length + 4
  | .refreshing _ => 3
  | .deriving _ => 2
  | .committing _ _ => 1

end Meaning

section Statements

variable {tables : Tables} {work : WorkItem} {completedAt : Time} {recording : Recording}

theorem effect_cons (statement : RowStatement) (rest : List RowStatement) :
    (statement :: rest).foldlM (RowStatement.effect work) recording =
      (statement.effect work recording).bind fun after =>
        rest.foldlM (RowStatement.effect work) after :=
  List.foldlM_cons

theorem effect_evidence (evidence : List DetectionEvidence) (recording : Recording) :
    (evidence.map RowStatement.insertEvidence).foldlM (RowStatement.effect work) recording =
      (evidence.foldlM (insertEvidence recording.detectionId) recording.tables.evidence).map
        fun rows => { recording with tables := { recording.tables with evidence := rows } } := by
  induction evidence generalizing recording with
  | nil => rfl
  | cons first rest ih =>
      rw [List.map_cons, effect_cons, List.foldlM_cons]
      change Option.bind (Option.map _ (insertEvidence _ _ first)) _ =
        Option.map _ (Option.bind (insertEvidence _ _ first) _)
      cases inserted : insertEvidence recording.detectionId recording.tables.evidence first with
      | none => rfl
      | some rows => exact ih _

theorem effect_detection (evaluation : ReprocessingEvaluation) (recording : Recording) :
    ((detectionStatements evaluation).foldlM (RowStatement.effect work) recording).map
      (fun after => (after.tables, after.runId)) =
        (recording.tables.insertDetection work evaluation.technologyVersion
          evaluation.detection).map fun after => (after, recording.runId) := by
  unfold detectionStatements Tables.insertDetection
  cases evaluation.detection with
  | none => rfl
  | some detection =>
      dsimp only
      rw [effect_cons]
      let row := detectionRow recording.tables.nextId work detection evaluation.technologyVersion
      change (Option.bind (Option.map _ (insertChecked admitsReprocessed row _)) _).map _ =
        Option.map _ (Option.bind (insertChecked admitsReprocessed row _) _)
      cases insertChecked admitsReprocessed row recording.tables.detections with
      | none => rfl
      | some rows =>
          change Option.map _ (List.foldlM _ _ _) = Option.map _ (Option.bind (List.foldlM _ _ _) _)
          rw [effect_evidence]
          dsimp only
          cases List.foldlM (insertEvidence recording.tables.nextId) recording.tables.evidence
            detection.evidence <;> rfl

/-- The statements of a report, one by one, come to its record call. -/
theorem effect_record (tables : Tables) (work : WorkItem) (report : Report)
    (completedAt : Time) :
    (((report.statements completedAt).foldlM (RowStatement.effect work)
      ⟨tables, work.runId, 0⟩).bind fun recording =>
        refreshRun recording.tables recording.runId completedAt) =
      report.record tables work completedAt := by
  cases report with
  | succeeded evaluation =>
      dsimp only [Report.statements, Report.record, recordReprocessingSuccess]
      rw [List.cons_append, effect_cons]
      change Option.bind (Option.bind (Option.map _
        (tables.insertObservation work evaluation.observation.status)) _) _ =
          Option.bind (tables.insertObservation work evaluation.observation.status) _
      cases tables.insertObservation work evaluation.observation.status with
      | none => rfl
      | some observed =>
          change Option.bind (List.foldlM _ _ (_ ++ _)) _ =
            Option.bind (observed.insertDetection _ _ _) _
          have detected := @effect_detection work evaluation ⟨observed, work.runId, 0⟩
          rw [List.foldlM_append]
          dsimp only at detected
          cases ran : List.foldlM (RowStatement.effect work) ⟨observed, work.runId, 0⟩
              (detectionStatements evaluation) with
          | none =>
              rw [ran] at detected
              rw [Option.map_eq_none_iff.mp detected.symm]
              rfl
          | some after =>
              rw [ran] at detected
              obtain ⟨inserted, found, same⟩ := Option.map_eq_some_iff.mp detected.symm
              obtain ⟨sameTables, sameRun⟩ := Prod.mk.inj same
              rw [found]
              change refreshRun (after.tables.updateItem _ _) after.runId _ = refreshRun _ _ _
              rw [← sameTables, ← sameRun]
              rfl
  | failed summary retryAt terminal =>
      dsimp only [Report.statements, Report.record, recordReprocessingFailure]
      rw [effect_cons]
      change Option.bind (Option.bind (Option.map _
        (tables.items.find? fun row => row.id == work.id)) _) _ =
          Option.bind (tables.items.find? fun row => row.id == work.id) _
      cases tables.items.find? fun row => row.id == work.id with
      | none => rfl
      | some row => cases terminal <;> rfl

end Statements

section Steps

variable {tables : Tables} {session : Session} {statement : RowStatement}
  {rest : List RowStatement}

/-- What a transaction sees, as a record call that has come as far. -/
def Session.recording (tables : Tables) (session : Session) : Recording where
  tables := session.view tables
  runId := session.runId
  detectionId := session.detectionId

theorem view_write (phase : session.phase = .writing (statement :: rest)) (row : RowWrite) :
    (session.write row rest).view tables = row.apply (session.view tables) := by
  rw [view_of_writing phase]
  exact List.foldl_concat _ _ _ _

theorem written_drawn (sound : session.Sound tables) (later : Uuid) :
    session.written { tables with nextId := later } =
      { session.written tables with nextId := later } := by
  rw [written_eq session sound.own, written_eq session sound.own]

/-- The held item is the one that the update selects, and it is running. -/
theorem Session.Sound.running_item {change : ItemChange} (sound : session.Sound tables)
    (tablesSound : tables.Sound) (phase : session.phase = .writing (.updateItem change :: rest)) :
    (∀ row ∈ (session.view tables).items, (row.id == session.work.id) =
      (row.id == session.work.id && row.status == .running)) ∧
    ((session.view tables).items.any fun row =>
      row.id == session.work.id && row.status == .running) = true := by
  have items : (session.view tables).items = tables.items := by
    rw [view_of_writing phase]
    exact written_items_plain sound (sound.progress.rows_plain phase)
  obtain ⟨item, inTable, sameId, _, _, running⟩ := sound.held.item
  rw [items]
  constructor
  · intro row member
    by_cases same : row.id = session.work.id
    · have equal := eq_of_key_eq tablesSound.keyed.placed.ids member inTable
        (same.trans sameId.symm)
      rw [equal, running, sameId, beq_self_eq_true]
      rfl
    · rw [beq_eq_false_iff_ne.mpr same]
      rfl
  · apply List.any_eq_true.mpr
    refine ⟨item, inTable, ?_⟩
    rw [sameId, running, beq_self_eq_true]
    rfl

/-- A statement does to what the transaction sees what it does to the tables at once. -/
theorem executeRow_effect (sound : session.Sound tables) (tablesSound : tables.Sound)
    (phase : session.phase = .writing (statement :: rest)) :
    (session.executeRow tables rest statement).map (fun after => after.2.recording after.1) =
      statement.effect session.work (session.recording tables) := by
  have view := view_of_writing phase tables
  cases statement with
  | lockItem =>
      unfold Session.executeRow RowStatement.effect Session.recording
      dsimp only
      cases (session.view tables).items.find? fun row => row.id == session.work.id with
      | none => rfl
      | some row =>
          rw [view]
          rfl
  | insertObservation status =>
      unfold Session.executeRow RowStatement.effect Session.recording Tables.insertObservation
      dsimp only
      unfold insertChecked
      split
      · dsimp only [Option.map_some]
        rw [view_write phase]
        rfl
      · rfl
  | insertDetection detection technologyVersion =>
      have nextId : (session.view tables).nextId = tables.nextId := by
        rw [view, written_eq session sound.own]
      unfold Session.executeRow RowStatement.effect Session.recording
      dsimp only
      rw [nextId]
      unfold insertChecked
      split
      · have drawn : (session.written { tables with nextId := tables.nextId + 1 }) =
            { session.view tables with nextId := tables.nextId + 1 } := by
          rw [written_drawn sound, view]
        have wrote : ∀ after : Tables, (session.write (.detection (detectionRow tables.nextId
            session.work detection technologyVersion)) rest).view after =
              RowWrite.apply (session.written after) (.detection (detectionRow tables.nextId
                session.work detection technologyVersion)) :=
          fun after => List.foldl_concat _ _ _ _
        dsimp only [Option.map_some]
        apply congrArg some
        refine Recording.mk.injEq .. ▸ ⟨?_, rfl, rfl⟩
        refine (wrote _).trans ?_
        rw [drawn]
        rfl
      · rfl
  | insertEvidence evidence =>
      unfold Session.executeRow RowStatement.effect Session.recording insertEvidence
      dsimp only
      unfold insertChecked
      split
      · dsimp only [Option.map_some]
        rw [view_write phase]
        rfl
      · rfl
  | updateItem change =>
      obtain ⟨held, running⟩ := sound.running_item tablesSound phase
      unfold Session.executeRow RowStatement.effect Session.recording
      dsimp only
      rw [if_pos running, Option.map_some, view_write phase]
      apply congrArg some
      refine Recording.mk.injEq .. ▸ ⟨?_, rfl, rfl⟩
      unfold RowWrite.apply Tables.updateItem
      dsimp only
      rw [updateWhere_congr held]

theorem executeRow_completedAt {after : Tables} {next : Session}
    (success : session.executeRow tables rest statement = some (after, next)) :
    next.completedAt = session.completedAt := by
  unfold Session.executeRow at success
  cases statement with
  | lockItem =>
      obtain ⟨_, _, same⟩ := Option.map_eq_some_iff.mp success
      cases same
      rfl
  | insertObservation _ =>
      obtain ⟨_, _, same⟩ := Option.map_eq_some_iff.mp success
      cases same
      rfl
  | insertDetection _ _ =>
      dsimp only at success
      split at success <;> cases success
      rfl
  | insertEvidence _ =>
      dsimp only at success
      split at success <;> cases success
      rfl
  | updateItem _ =>
      dsimp only at success
      split at success <;> cases success <;> rfl

/-- What a statement leaves of a transaction comes to what was left before it. -/
structure Session.Continues (tables after : Tables) (session next : Session) : Prop where
  finish : next.finish after = session.finish tables
  work : next.work = session.work
  completedAt : next.completedAt = session.completedAt
  drawn : after = { tables with nextId := after.nextId }
  left : next.phase.left < session.phase.left

theorem execute_finish (sound : session.Sound tables) (tablesSound : tables.Sound) :
    match session.execute tables with
    | none => session.finish tables = none
    | some (after, none) => session.finish tables = some after
    | some (after, some next) => session.Continues tables after next := by
  obtain ⟨work, runId, completedAt, detectionId, rows, current⟩ := session
  cases current with
  | writing statements =>
      cases statements with
      | nil =>
          refine ⟨?_, rfl, rfl, rfl, Nat.lt_succ_self 3⟩
          let seen := rows.foldl RowWrite.apply tables
          change Option.map _ (seen.updateRun runId (seen.countItems runId) completedAt) =
            Option.bind (seen.updateRun runId (seen.countItems runId) completedAt) _
          cases seen.updateRun runId (seen.countItems runId) completedAt <;> rfl
      | cons statement rest =>
          let session : Session := ⟨work, runId, completedAt, detectionId, rows,
            .writing (statement :: rest)⟩
          have effect := executeRow_effect sound tablesSound rfl
          have finish : session.finish tables =
              ((statement.effect work (session.recording tables)).bind fun recording =>
                rest.foldlM (RowStatement.effect work) recording).bind fun recording =>
                  refreshRun recording.tables recording.runId completedAt := by
            change Option.bind (List.foldlM _ _ (statement :: rest)) _ = _
            rw [effect_cons]
            rfl
          change match (session.executeRow tables rest statement).map fun result =>
              (result.1, some result.2) with
            | none => session.finish tables = none
            | some (after, none) => session.finish tables = some after
            | some (after, some next) => session.Continues tables after next
          cases success : session.executeRow tables rest statement with
          | none =>
              rw [success] at effect
              rw [finish, ← effect]
              rfl
          | some result =>
              obtain ⟨after, next⟩ := result
              obtain ⟨steps, nextPhase⟩ := executeRow_steps sound tablesSound rfl success
              have kept := executeRow_completedAt success
              refine ⟨?_, steps.work, kept, steps.drawn, ?_⟩
              · rw [success] at effect
                rw [finish, ← effect]
                unfold Session.finish
                rw [nextPhase, steps.work, kept]
                rfl
              · rw [nextPhase]
                exact Nat.lt_succ_self _
  | refreshing counts =>
      let session : Session := ⟨work, runId, completedAt, detectionId, rows, .refreshing counts⟩
      have finish : session.finish tables =
          ((session.written tables).updateRun runId counts completedAt).map fun after =>
            if counts.pending = 0 then after.insertVersionChanges runId else after := rfl
      change match ((session.written tables).updateRun runId counts completedAt).map fun _ =>
          (tables, some { session with
            phase := if counts.pending = 0 then .deriving counts else .committing counts [] }) with
        | none => session.finish tables = none
        | some (after, none) => session.finish tables = some after
        | some (after, some next) => session.Continues tables after next
      cases updated : (session.written tables).updateRun runId counts completedAt with
      | none =>
          rw [updated] at finish
          exact finish
      | some after =>
          have same : after = (session.written tables).refreshedRun runId counts completedAt := by
            unfold Tables.updateRun at updated
            split at updated
            · exact (Option.some.inj updated).symm
            · cases updated
          rw [updated, same] at finish
          dsimp only [Option.map_some]
          by_cases none : counts.pending = 0
          · rw [if_pos none]
            rw [Option.map_some, if_pos none] at finish
            exact ⟨finish.symm, rfl, rfl, rfl, Nat.lt_succ_self 2⟩
          · rw [if_neg none]
            rw [Option.map_some, if_neg none] at finish
            exact ⟨finish.symm, rfl, rfl, rfl, Nat.lt_of_succ_lt (Nat.lt_succ_self 2)⟩
  | «deriving» counts => exact ⟨rfl, rfl, rfl, rfl, Nat.lt_succ_self 1⟩
  | committing counts changes => rfl

end Steps

section Runs

variable {base : Database} {session : Session}

/-- The database with one more open transaction. -/
def Database.opened (base : Database) (tables : Tables) (session : Session) : Database :=
  { base with
    tables := tables
    sessions := base.sessions ++ [session] }

theorem opened_find {tables : Tables} (sound : (base.opened tables session).Sound) :
    ((base.opened tables session).sessions.find? fun other => other.work.id == session.work.id) =
      some session :=
  (find?_key_eq_some sound.unique).mpr ⟨List.mem_append_right _ List.mem_cons_self, rfl⟩

theorem opened_apart {tables : Tables} (sound : (base.opened tables session).Sound) :
    ∀ other ∈ base.sessions, other.work.id ≠ session.work.id := by
  have unique := sound.unique
  unfold Database.opened at unique
  rw [List.map_append, List.nodup_append] at unique
  intro other inBase
  exact unique.2.2 _ (List.mem_map_of_mem (f := fun other : Session => other.work.id) inBase) _
    List.mem_cons_self

/-- While no other transaction holds the row of the run, nothing is waited for. -/
theorem opened_unblocked {tables : Tables} (sound : (base.opened tables session).Sound)
    (alone : ∀ other ∈ base.sessions, other.runId = session.work.runId →
      other.phase.holdsRun = false) : (base.opened tables session).blocks session = false := by
  unfold Database.blocks
  split
  · have own := sound.sessions session (List.mem_append_right _ List.mem_cons_self)
    apply List.any_eq_false.mpr
    intro other inSessions held
    rw [Bool.and_eq_true, Bool.and_eq_true, bne_iff_ne, beq_iff_eq] at held
    obtain ⟨⟨apart, sameRun⟩, holds⟩ := held
    rcases List.mem_append.mp inSessions with old | new
    · rw [alone other old (sameRun.trans own.runId)] at holds
      cases holds
    · exact apart (congrArg (fun other : Session => other.work.id) (List.mem_singleton.mp new))
  · rfl

theorem opened_step {tables : Tables} (sound : (base.opened tables session).Sound)
    (alone : ∀ other ∈ base.sessions, other.runId = session.work.runId →
      other.phase.holdsRun = false) :
    (base.opened tables session).step (.execute session.work.id) =
      match session.execute tables with
      | none => { base with tables := tables }
      | some (after, none) => { base with tables := after }
      | some (after, some next) => base.opened after next := by
  have apart := opened_apart sound
  have closed : ∀ after : Tables,
      (base.opened tables session).close session.work.id after = { base with tables := after } := by
    intro after
    unfold Database.close Database.opened
    dsimp only
    have kept : (base.sessions.filter fun other => other.work.id != session.work.id) =
        base.sessions := by
      apply List.filter_eq_self.mpr
      exact fun other inBase => bne_iff_ne.mpr (apart other inBase)
    rw [List.filter_append, kept, List.filter_singleton, bne_self_eq_false]
    change ({ base with tables := after, sessions := base.sessions ++ [] } : Database) = _
    rw [List.append_nil]
  unfold Database.step
  dsimp only
  rw [opened_find sound]
  dsimp only
  rw [opened_unblocked sound alone, if_neg Bool.false_ne_true]
  unfold Database.advance
  change (match session.execute tables with
    | none => _
    | some (after, none) => _
    | some (after, some next) => _) = _
  cases session.execute tables with
  | none => exact closed _
  | some result =>
      obtain ⟨after, last | next⟩ := result
      · exact closed after
      · dsimp only
        unfold Database.opened
        dsimp only
        rw [updateWhere_append, updateWhere_eq_self]
        · simp [updateWhere]
        · exact fun other inBase => beq_eq_false_iff_ne.mpr (apart other inBase)

theorem closed_run {tables : Tables} {itemId : Uuid} (n : Nat)
    (apart : ∀ other ∈ base.sessions, other.work.id ≠ itemId) :
    run Database.step { base with tables := tables } (List.replicate n (.execute itemId)) =
      { base with tables := tables } := by
  induction n with
  | zero => rfl
  | succ n ih =>
      have absent : (base.sessions.find? fun other => other.work.id == itemId) = none := by
        apply List.find?_eq_none.mpr
        exact fun other inBase same => apart other inBase (beq_iff_eq.mp same)
      rw [List.replicate_succ, run_cons]
      have idle : ({ base with tables := tables } : Database).step (.execute itemId) =
          { base with tables := tables } := by
        unfold Database.step
        dsimp only
        rw [absent]
      rw [idle]
      exact ih

/-- Enough statements in a row finish the transaction. -/
theorem opened_run {tables : Tables} (n : Nat) (sound : (base.opened tables session).Sound)
    (alone : ∀ other ∈ base.sessions, other.runId = session.work.runId →
      other.phase.holdsRun = false) (enough : session.phase.left ≤ n) :
    ∃ after, run Database.step (base.opened tables session)
        (List.replicate n (.execute session.work.id)) = { base with tables := after } ∧
      match session.finish tables with
      | some recorded => after = recorded
      | none => after = { tables with nextId := after.nextId } := by
  induction n generalizing tables session with
  | zero =>
      exfalso
      unfold Phase.left at enough
      split at enough <;> omega
  | succ n ih =>
      have own : session.Sound tables :=
        sound.sessions session (List.mem_append_right _ List.mem_cons_self)
      have step := opened_step sound alone
      have apart := opened_apart sound
      have finish := execute_finish own sound.tables
      rw [List.replicate_succ, run_cons, step]
      have later := sound.step (.execute session.work.id)
      rw [step] at later
      change ∃ after, run Database.step (match session.execute tables with
        | none => _
        | some (after, none) => _
        | some (after, some next) => _) _ = _ ∧ _
      cases executed : session.execute tables with
      | none =>
          rw [executed] at finish
          exact ⟨tables, closed_run n apart, by rw [finish]⟩
      | some result =>
          obtain ⟨after, last | next⟩ := result
          · rw [executed] at finish
            exact ⟨after, closed_run n apart, by rw [finish]⟩
          · rw [executed] at finish later
            dsimp only at finish later ⊢
            have left := finish.left
            rw [← finish.work] at alone ⊢
            obtain ⟨final, ran, same⟩ := ih later alone (by omega)
            refine ⟨final, ran, ?_⟩
            rw [finish.finish] at same
            cases done : session.finish tables with
            | some recorded =>
                rw [done] at same
                exact same
            | none =>
                rw [done] at same
                dsimp only at same ⊢
                rw [finish.drawn] at same
                exact same

/-- A held item whose record call nobody interrupts: the call is the one step that it would be
on its own, and one that fails leaves nothing but drawn identifiers. -/
theorem serial_record (kinds : List String) (actions : List Action) {work : WorkItem}
    (live : work ∈ (Database.after kinds actions).live) (report : Report) (completedAt : Time)
    (alone : ∀ other ∈ (Database.after kinds actions).sessions, other.runId = work.runId →
      other.phase.holdsRun = false) {n : Nat}
    (enough : (report.statements completedAt).length + 4 ≤ n) :
    ∃ after, Database.after kinds (actions ++ .begin work.id report completedAt ::
        List.replicate n (.execute work.id)) =
      { Database.after kinds actions with
        tables := after
        live := (Database.after kinds actions).live.filter fun other => other.id != work.id } ∧
      match report.record (Database.after kinds actions).tables work completedAt with
      | some recorded => after = recorded
      | none => after = { (Database.after kinds actions).tables with nextId := after.nextId } := by
  have sound := after_db_sound kinds actions
  have unique := (List.nodup_append.mp sound.apart).1
  have found : ((Database.after kinds actions).live.find? fun other => other.id == work.id) =
      some work := (find?_key_eq_some unique).mpr ⟨live, rfl⟩
  have began : (Database.after kinds actions).step (.begin work.id report completedAt) =
      ({ Database.after kinds actions with
        live := (Database.after kinds actions).live.filter fun other =>
          other.id != work.id } : Database).opened (Database.after kinds actions).tables
            (Session.begin work report completedAt) := by
    conv_lhs => unfold Database.step
    dsimp only
    rw [found]
    rfl
  have opened := sound.step (.begin work.id report completedAt)
  rw [began] at opened
  have finish : (Session.begin work report completedAt).finish (Database.after kinds actions).tables =
      report.record (Database.after kinds actions).tables work completedAt :=
    effect_record _ work report completedAt
  obtain ⟨after, ran, same⟩ := opened_run n opened alone enough
  refine ⟨after, ?_, ?_⟩
  · unfold Database.after at began ran ⊢
    rw [run_append, run_cons, began]
    exact ran
  · rw [finish] at same
    exact same

/-- The first of two claimed items, recorded while the other one is held. -/
theorem serial_record_claimed : ∃ work ∈ (Database.after replayKinds (twoReplays.take 6)).live,
    work.id = 4 ∧ ∃ after, Database.after replayKinds (twoReplays.take 6 ++
      .begin work.id (.succeeded nothingFound) 5 :: List.replicate 6 (.execute work.id)) =
        { Database.after replayKinds (twoReplays.take 6) with
          tables := after
          live := (Database.after replayKinds (twoReplays.take 6)).live.filter fun other =>
            other.id != work.id } ∧
      (after.observations.map ReprocessedObservationRow.runId) = [3] := by
  have found : ∃ work ∈ (Database.after replayKinds (twoReplays.take 6)).live, work.id = 4 := by
    decide +kernel
  obtain ⟨work, live, id⟩ := found
  have none : (Database.after replayKinds (twoReplays.take 6)).sessions.length = 0 := by
    decide +kernel
  have alone : ∀ other ∈ (Database.after replayKinds (twoReplays.take 6)).sessions,
      other.runId = work.runId → other.phase.holdsRun = false := by
    rw [List.eq_nil_of_length_eq_zero none]
    exact fun _ absent => nomatch absent
  obtain ⟨after, ran, _⟩ := serial_record replayKinds (twoReplays.take 6) live (.succeeded nothingFound) 5
    alone (le_refl 6)
  refine ⟨work, live, id, after, ran, ?_⟩
  have tables := congrArg Database.tables ran
  dsimp only at tables
  rw [← tables, id]
  decide +kernel

end Runs

end TechAtlas.Reprocessing
