import TechAtlas.Reprocessing.Transactions

set_option autoImplicit false

/- The statements of a record call one by one, up to the commit. -/
namespace TechAtlas.Reprocessing

open Library TechAtlas.Detector TechAtlas.Store TechAtlas.Storage

section Progress

variable {session next : Session} {statement : RowStatement} {rest : List RowStatement}

theorem progress_of_writing (phase : session.phase = .writing rest)
    (plain : ∀ write ∈ session.rows, write.isItem = false) {front : List RowStatement}
    {change : ItemChange} (form : rest = front ++ [.updateItem change])
    (early : ∀ other ∈ front, other.isUpdate = false)
    (kind : change.isSuccess = true ∨
      session.rows = [] ∧ ∀ other ∈ front, other.isLock = true) : session.Progress := by
  unfold Session.Progress
  rw [phase]
  cases rest with
  | nil =>
      have length := congrArg List.length form
      rw [List.length_append, List.length_singleton] at length
      cases length
  | cons first others => exact ⟨plain, front, change, form, early, kind⟩

theorem Session.Progress.rows_plain (progress : session.Progress)
    (phase : session.phase = .writing (statement :: rest)) :
    ∀ write ∈ session.rows, write.isItem = false := by
  unfold Session.Progress at progress
  rw [phase] at progress
  exact progress.1

/-- A statement before the update of the item writes no item, and only a success writes. -/
theorem Session.Progress.early (progress : session.Progress)
    (phase : session.phase = .writing (statement :: rest)) (notUpdate : statement.isUpdate = false)
    (nextPhase : next.phase = .writing rest)
    (rows : next.rows = session.rows ∨ statement.isLock = false ∧
      ∃ write : RowWrite, write.isItem = false ∧ next.rows = session.rows ++ [write]) :
    next.Progress := by
  unfold Session.Progress at progress
  rw [phase] at progress
  obtain ⟨plain, front, change, form, early, kind⟩ := progress
  cases front with
  | nil =>
      rw [List.nil_append] at form
      rw [(List.cons.inj form).1] at notUpdate
      cases notUpdate
  | cons first others =>
      rw [List.cons_append] at form
      obtain ⟨same, form⟩ := List.cons.inj form
      have earlyRest : ∀ other ∈ others, other.isUpdate = false :=
        fun other member => early other (List.mem_cons_of_mem first member)
      rcases rows with kept | ⟨notLock, write, writePlain, wrote⟩
      · apply progress_of_writing nextPhase _ form earlyRest
        · rw [kept]
          exact kind.imp_right fun failure => ⟨failure.1,
            fun other member => failure.2 other (List.mem_cons_of_mem first member)⟩
        · rw [kept]
          exact plain
      · apply progress_of_writing nextPhase _ form earlyRest
        · rcases kind with success | failure
          · exact .inl success
          · have lock := failure.2 first List.mem_cons_self
            rw [← same, notLock] at lock
            cases lock
        · rw [wrote]
          intro other member
          rcases List.mem_append.mp member with old | new
          · exact plain other old
          · rw [List.mem_singleton.mp new]
            exact writePlain

/-- The update of the item is the last statement. -/
theorem Session.Progress.update {change : ItemChange} (progress : session.Progress)
    (phase : session.phase = .writing (.updateItem change :: rest)) :
    rest = [] ∧ (change.isSuccess = true ∨ session.rows = []) := by
  unfold Session.Progress at progress
  rw [phase] at progress
  obtain ⟨_, front, last, form, early, kind⟩ := progress
  cases front with
  | nil =>
      rw [List.nil_append] at form
      obtain ⟨same, none⟩ := List.cons.inj form
      cases same
      exact ⟨none, kind.imp_right And.left⟩
  | cons first others =>
      rw [List.cons_append] at form
      have isFirst := (List.cons.inj form).1
      have notUpdate := early first List.mem_cons_self
      rw [← isFirst] at notUpdate
      cases notUpdate

end Progress

section Rows

variable {tables after : Tables} {session next : Session} {statement : RowStatement}
  {rest : List RowStatement}

theorem view_of_writing (phase : session.phase = .writing rest) (tables : Tables) :
    session.view tables = session.written tables := by
  unfold Session.view
  rw [phase]
  rfl

theorem changeIn_plain {rows : List RowWrite} (plain : ∀ write ∈ rows, write.isItem = false)
    (item : WorkItemRow) : changeIn rows item = item := by
  induction rows with
  | nil => rfl
  | cons write later ih =>
      have kept := ih fun other member => plain other (List.mem_cons_of_mem write member)
      have first := plain write List.mem_cons_self
      cases write with
      | item _ _ => cases first
      | observation _ => exact kept
      | detection _ => exact kept
      | evidence _ => exact kept

theorem written_items_plain (sound : session.Sound tables)
    (plain : ∀ write ∈ session.rows, write.isItem = false) :
    (session.written tables).items = tables.items := by
  rw [written_eq session sound.own tables]
  exact List.map_id'' (fun row => (ite_congr rfl (fun _ => changeIn_plain plain row)
    fun _ => rfl).trans (ite_self row)) tables.items

/-- A session that goes on writing is sound, whatever it has written of its item. -/
theorem Session.Sound.goes_on (sound : session.Sound tables) {later : Uuid}
    (work : next.work = session.work)
    (runId : next.runId = session.runId) (phase : next.phase = .writing rest)
    (own : ∀ write ∈ next.rows, write.IsOf session.work)
    (observedOnce : (observationsIn next.rows).length ≤ 1)
    (detectedOnce : (detectionsIn next.rows).length ≤ 1)
    (drawn : ∀ row ∈ detectionsIn next.rows, row.id < later) (progress : next.Progress) :
    next.Sound { tables with nextId := later } where
  held := by
    rw [work]
    exact ⟨sound.held.item, sound.held.rule⟩
  runId := by
    rw [runId, work]
    exact sound.runId
  own := by
    rw [work]
    exact own
  observedOnce := observedOnce
  detectedOnce := detectedOnce
  detectionsDrawn := drawn
  progress := progress
  settled counts counted _ := by
    rw [phase] at counted
    cases counted
  derived := by
    unfold Session.Derived
    rw [phase]
    trivial

/-- A statement that writes neither an observation nor a detection. -/
theorem Session.Sound.keeps_rows (sound : session.Sound tables) (work : next.work = session.work)
    (runId : next.runId = session.runId) (phase : next.phase = .writing rest)
    (own : ∀ write ∈ next.rows, write.IsOf session.work)
    (observations : observationsIn next.rows = observationsIn session.rows)
    (detections : detectionsIn next.rows = detectionsIn session.rows) (progress : next.Progress) :
    session.Steps tables tables next where
  work := work
  runId := runId
  drawn := rfl
  later := le_refl _
  sound := by
    refine sound.goes_on work runId phase own ?_ ?_ ?_ progress
    · rw [observations]
      exact sound.observedOnce
    · rw [detections]
      exact sound.detectedOnce
    · rw [detections]
      exact sound.detectionsDrawn
  detections := .inl detections

theorem observationsIn_append (rows added : List RowWrite) :
    observationsIn (rows ++ added) = observationsIn rows ++ observationsIn added :=
  List.filterMap_append

theorem detectionsIn_append (rows added : List RowWrite) :
    detectionsIn (rows ++ added) = detectionsIn rows ++ detectionsIn added :=
  List.filterMap_append

theorem own_append (sound : session.Sound tables) (write : RowWrite)
    (isOf : write.IsOf session.work) :
    ∀ other ∈ session.rows ++ [write], other.IsOf session.work := by
  intro other member
  rcases List.mem_append.mp member with old | new
  · exact sound.own other old
  · rw [List.mem_singleton.mp new]
    exact isOf

theorem lockItem_steps (sound : session.Sound tables) (tablesSound : tables.Sound)
    (phase : session.phase = .writing (.lockItem :: rest))
    (success : session.executeRow tables rest .lockItem = some (after, next)) :
    session.Steps tables after next ∧ next.phase = .writing rest := by
  obtain ⟨row, found, same⟩ := Option.map_eq_some_iff.mp success
  cases same
  have plain := sound.progress.rows_plain phase
  rw [view_of_writing phase, written_items_plain sound plain] at found
  obtain ⟨member, isItem⟩ := find?_eq_some_mem found
  obtain ⟨item, inTable, sameId, sameRun, _⟩ := sound.held.item
  have equal : row = item := eq_of_key_eq tablesSound.keyed.placed.ids member inTable
    ((beq_iff_eq.mp isItem).trans sameId.symm)
  refine ⟨sound.keeps_rows rfl ?_ rfl sound.own rfl rfl ?_, rfl⟩
  · change row.runId = session.runId
    rw [equal, sameRun, sound.runId]
  · exact sound.progress.early phase rfl rfl (.inl rfl)

theorem insertObservation_steps {status : RuleObservationStatus} (sound : session.Sound tables)
    (phase : session.phase = .writing (.insertObservation status :: rest))
    (success : session.executeRow tables rest (.insertObservation status) = some (after, next)) :
    session.Steps tables after next ∧ next.phase = .writing rest := by
  obtain ⟨_, inserted, same⟩ := Option.map_eq_some_iff.mp success
  cases same
  obtain ⟨rows, checked, _⟩ := Option.map_eq_some_iff.mp inserted
  have unused := (insertChecked_eq_some.mp checked).1
  rw [view_of_writing phase, written_eq session sound.own tables] at unused
  have none : observationsIn session.rows = [] := by
    rw [List.eq_nil_iff_forall_not_mem]
    intro row member
    have isOf := sound.own _ (mem_observationsIn.mp member)
    have differs := List.all_eq_true.mp unused row (List.mem_append_right _ member)
    simp [isOf.1.1, isOf.1.2, isOf.2] at differs
  have own := own_append sound (.observation (observationRow session.work status))
    ⟨⟨rfl, rfl⟩, rfl⟩
  have observations : observationsIn (session.rows ++
      [.observation (observationRow session.work status)]) =
        [observationRow session.work status] := by
    rw [observationsIn_append, none]
    rfl
  have detections : detectionsIn (session.rows ++
      [.observation (observationRow session.work status)]) = detectionsIn session.rows :=
    (detectionsIn_append _ _).trans (List.append_nil _)
  refine ⟨⟨rfl, rfl, rfl, le_refl _, ?_, .inl detections⟩, rfl⟩
  refine sound.goes_on rfl rfl rfl own ?_ ?_ ?_ ?_
  · change (observationsIn (session.rows ++ _)).length ≤ 1
    rw [observations]
    exact le_refl 1
  · change (detectionsIn (session.rows ++ _)).length ≤ 1
    rw [detections]
    exact sound.detectedOnce
  · change ∀ row ∈ detectionsIn (session.rows ++ _), row.id < _
    rw [detections]
    exact sound.detectionsDrawn
  · exact sound.progress.early phase rfl rfl (.inr ⟨rfl, _, rfl, rfl⟩)

theorem insertDetection_steps {detection : Detection} {technologyVersion : Option Text}
    (sound : session.Sound tables)
    (phase : session.phase = .writing (.insertDetection detection technologyVersion :: rest))
    (success : session.executeRow tables rest (.insertDetection detection technologyVersion) =
      some (after, next)) : session.Steps tables after next ∧ next.phase = .writing rest := by
  unfold Session.executeRow at success
  dsimp only at success
  split at success
  next admitted =>
    cases success
    let row := detectionRow tables.nextId session.work detection technologyVersion
    have unused := (Bool.and_eq_true _ _ ▸ admitted).2
    rw [view_of_writing phase, written_eq session sound.own tables] at unused
    have none : detectionsIn session.rows = [] := by
      rw [List.eq_nil_iff_forall_not_mem]
      intro old member
      have isOf := sound.own _ (mem_detectionsIn.mp member)
      have differs := List.all_eq_true.mp unused old (List.mem_append_right _ member)
      simp [detectionRow, isOf.1.1, isOf.1.2, isOf.2.1, isOf.2.2] at differs
    have own := own_append sound (.detection row) ⟨⟨rfl, rfl⟩, rfl, rfl⟩
    have observations : observationsIn (session.rows ++ [.detection row]) =
        observationsIn session.rows := (observationsIn_append _ _).trans (List.append_nil _)
    have detections : detectionsIn (session.rows ++ [.detection row]) = [row] := by
      rw [detectionsIn_append, none]
      rfl
    refine ⟨⟨rfl, rfl, rfl, Nat.le_succ _, ?_, .inr ⟨row, rfl, ?_⟩⟩, rfl⟩
    · refine sound.goes_on rfl rfl rfl own ?_ ?_ ?_ ?_
      · change (observationsIn (session.rows ++ [.detection row])).length ≤ 1
        rw [observations]
        exact sound.observedOnce
      · change (detectionsIn (session.rows ++ [.detection row])).length ≤ 1
        rw [detections]
        exact le_refl 1
      · change ∀ old ∈ detectionsIn (session.rows ++ [.detection row]), old.id < _
        rw [detections]
        intro old member
        rw [List.mem_singleton.mp member]
        exact Nat.lt_succ_self _
      · exact sound.progress.early phase rfl rfl (.inr ⟨rfl, _, rfl, rfl⟩)
    · change detectionsIn (session.rows ++ [.detection row]) = _
      rw [detections, none]
      rfl
  next => cases success

theorem insertEvidence_steps {evidence : DetectionEvidence} (sound : session.Sound tables)
    (phase : session.phase = .writing (.insertEvidence evidence :: rest))
    (success : session.executeRow tables rest (.insertEvidence evidence) = some (after, next)) :
    session.Steps tables after next ∧ next.phase = .writing rest := by
  unfold Session.executeRow at success
  dsimp only at success
  split at success
  next =>
    cases success
    refine ⟨sound.keeps_rows rfl rfl rfl (own_append sound _ trivial) ?_ ?_ ?_, rfl⟩
    · exact (observationsIn_append _ _).trans (List.append_nil _)
    · exact (detectionsIn_append _ _).trans (List.append_nil _)
    · exact sound.progress.early phase rfl rfl (.inr ⟨rfl, _, rfl, rfl⟩)
  next => cases success

theorem updateItem_steps {change : ItemChange} (sound : session.Sound tables)
    (phase : session.phase = .writing (.updateItem change :: rest))
    (success : session.executeRow tables rest (.updateItem change) = some (after, next)) :
    session.Steps tables after next ∧ next.phase = .writing rest := by
  have plain := sound.progress.rows_plain phase
  obtain ⟨done, kind⟩ := sound.progress.update phase
  obtain ⟨item, inTable, sameId, _, _, running⟩ := sound.held.item
  have found : ((session.view tables).items.any fun row =>
      row.id == session.work.id && row.status == .running) = true := by
    rw [view_of_writing phase, written_items_plain sound plain]
    apply List.any_eq_true.mpr
    refine ⟨item, inTable, ?_⟩
    rw [sameId, running, beq_self_eq_true]
    rfl
  unfold Session.executeRow at success
  dsimp only at success
  rw [if_pos found] at success
  cases success
  have progress : (session.write (.item session.work.id change) rest).Progress := by
    rw [done]
    exact ⟨session.rows, change, rfl, plain, kind⟩
  refine ⟨sound.keeps_rows rfl rfl rfl (own_append sound _ rfl) ?_ ?_ progress, rfl⟩
  · exact (observationsIn_append _ _).trans (List.append_nil _)
  · exact (detectionsIn_append _ _).trans (List.append_nil _)

/-- Every statement up to the counting. -/
theorem executeRow_steps (sound : session.Sound tables) (tablesSound : tables.Sound)
    (phase : session.phase = .writing (statement :: rest))
    (success : session.executeRow tables rest statement = some (after, next)) :
    session.Steps tables after next ∧ next.phase = .writing rest := by
  cases statement with
  | lockItem => exact lockItem_steps sound tablesSound phase success
  | insertObservation => exact insertObservation_steps sound phase success
  | insertDetection => exact insertDetection_steps sound phase success
  | insertEvidence => exact insertEvidence_steps sound phase success
  | updateItem => exact updateItem_steps sound phase success

end Rows

section Refreshing

variable {tables : Tables} {session : Session} {counts : RunCounts}

/-- A statement of `refresh_run` writes no row of its own. -/
theorem Session.Sound.rephased (sound : session.Sound tables) {phase : Phase}
    (progress : ({ session with phase := phase } : Session).Progress)
    (settled : ∀ counts, phase.counts = some counts → counts.pending = 0 →
      (session.written tables).countItems session.runId = counts)
    (derived : ({ session with phase := phase } : Session).Derived tables) :
    session.Steps tables tables { session with phase := phase } where
  work := rfl
  runId := rfl
  drawn := rfl
  later := le_refl _
  sound := { sound with
    progress := progress
    settled := settled
    derived := derived }
  detections := .inl rfl

theorem count_steps (sound : session.Sound tables) (phase : session.phase = .writing []) :
    session.Steps tables tables { session with
      phase := .refreshing ((session.view tables).countItems session.runId) } := by
  have progress := sound.progress
  unfold Session.Progress at progress
  rw [phase] at progress
  refine sound.rephased progress ?_ trivial
  intro counts counted _
  rw [← view_of_writing phase]
  exact Option.some.inj counted

theorem refresh_steps (sound : session.Sound tables) (phase : session.phase = .refreshing counts) :
    session.Steps tables tables { session with
      phase := if counts.pending = 0 then .deriving counts else .committing counts [] } := by
  have progress := sound.progress
  unfold Session.Progress at progress
  rw [phase] at progress
  have settled : ∀ other, some counts = some other → other.pending = 0 →
      (session.written tables).countItems session.runId = other := by
    intro other same
    exact sound.settled other (by rw [phase]; exact same)
  by_cases none : counts.pending = 0
  · rw [if_pos none]
    exact sound.rephased progress settled none
  · rw [if_neg none]
    exact sound.rephased progress settled (if_neg none).symm

theorem derive_steps (sound : session.Sound tables) (phase : session.phase = .deriving counts) :
    session.Steps tables tables { session with
      phase := .committing counts ((session.view tables).derivedChanges session.runId) } := by
  have progress := sound.progress
  unfold Session.Progress at progress
  rw [phase] at progress
  have none : counts.pending = 0 := by
    have derived := sound.derived
    unfold Session.Derived at derived
    rw [phase] at derived
    exact derived
  refine sound.rephased progress ?_ ?_
  · intro other same
    exact sound.settled other (by rw [phase]; exact same)
  · unfold Session.view
    rw [phase]
    exact (if_pos none).symm

end Refreshing

end TechAtlas.Reprocessing
