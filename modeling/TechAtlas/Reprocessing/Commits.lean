import TechAtlas.Reprocessing.Statements

set_option autoImplicit false

/- The commit of a record call: what it leaves in the tables, and what it keeps. -/
namespace TechAtlas.Reprocessing

open Library TechAtlas.Detector TechAtlas.Store TechAtlas.Storage

section Views

variable {tables : Tables} {session : Session} {counts : RunCounts}
  {changes : List VersionChangeRow}

/-- The tables after the commit. -/
theorem view_of_committing (sound : session.Sound tables)
    (phase : session.phase = .committing counts changes) : session.view tables = { tables with
      observations := tables.observations ++ observationsIn session.rows
      detections := tables.detections ++ detectionsIn session.rows
      evidence := tables.evidence ++ evidenceIn session.rows
      items := updateWhere (fun row => row.id == session.work.id) (changeIn session.rows)
        tables.items
      runs := updateWhere (fun run => run.id == session.runId)
        (RunRow.refreshed counts session.completedAt) tables.runs
      versionChanges := changes.foldl addChange tables.versionChanges } := by
  unfold Session.view
  rw [phase, written_eq session sound.own tables]
  rfl

theorem view_untouched (sound : session.Sound tables)
    (phase : session.phase = .committing counts changes) :
    Untouched (session.written tables) (session.view tables) := by
  rw [view_of_committing sound phase, written_eq session sound.own tables]
  refine ⟨rfl, rfl, ?_, rfl, rfl, le_refl _⟩
  apply updateWhere_map
  exact fun _ => rfl

theorem view_keyed (sound : session.Sound tables) (tablesSound : tables.Sound)
    (phase : session.phase = .committing counts changes) : (session.view tables).Keyed := by
  have keyed := sound.written_keyed tablesSound
  have untouched := view_untouched sound phase
  have observations : (session.view tables).observations =
      (session.written tables).observations := by
    rw [view_of_committing sound phase, written_eq session sound.own tables]
  have detections : (session.view tables).detections = (session.written tables).detections := by
    rw [view_of_committing sound phase, written_eq session sound.own tables]
  constructor
  · apply keyed.placed.moved untouched
    · rw [view_of_committing sound phase, written_eq session sound.own tables]
    · rw [view_of_committing sound phase, written_eq session sound.own tables]
  · rw [observations]
    exact keyed.observedOnce
  · rw [detections]
    exact keyed.detectedOnce
  · rw [observations, untouched.items]
    exact keyed.observed
  · rw [detections, untouched.items]
    exact keyed.detected
  · simp only [observations, untouched.ruleOf]
    exact keyed.observedRule
  · simp only [detections, untouched.ruleOf]
    exact keyed.detectedRule

/-- The commit leaves other runs as they are. -/
theorem view_sameRun (sound : session.Sound tables) (tablesSound : tables.Sound)
    (phase : session.phase = .committing counts changes)
    (drawn : ∀ change ∈ changes, change.reprocessingRunId = session.runId) {runId : Uuid}
    (other : runId ≠ session.runId) : SameRun runId tables (session.view tables) := by
  have apart : ∀ {id : Uuid}, id = session.work.runId → (id == runId) = false := by
    intro id same
    rw [same, ← sound.runId]
    exact beq_eq_false_iff_ne.mpr other.symm
  rw [view_of_committing sound phase]
  constructor
  · have keeps : ∀ item : WorkItemRow, ((changeIn session.rows item).runId == runId) =
        (item.runId == runId) := by
      intro item
      rw [(changeIn_keeps session.rows item).2.1]
    dsimp only
    rw [filter_updateWhere keeps]
    apply updateWhere_eq_self
    intro item member
    obtain ⟨inTable, ofRun⟩ := List.mem_filter.mp member
    obtain ⟨held, heldIn, sameId, sameRun, _⟩ := sound.held.item
    rw [beq_eq_false_iff_ne]
    intro same
    rw [eq_of_key_eq tablesSound.keyed.placed.ids inTable heldIn (same.trans sameId.symm),
      apart sameRun] at ofRun
    cases ofRun
  · have none : ((observationsIn session.rows).filter fun row => row.runId == runId) = [] := by
      rw [List.filter_eq_nil_iff]
      intro row member same
      rw [apart (sound.own _ (mem_observationsIn.mp member)).1.1] at same
      cases same
    dsimp only
    rw [List.filter_append, none, List.append_nil]
  · have none : ((detectionsIn session.rows).filter fun row => row.runId == runId) = [] := by
      rw [List.filter_eq_nil_iff]
      intro row member same
      rw [apart (sound.own _ (mem_detectionsIn.mp member)).1.1] at same
      cases same
    dsimp only
    rw [List.filter_append, none, List.append_nil]
  · apply filter_foldl_addChange
    intro row member same
    exact other (same.symm.trans (drawn row member))
  · exact fun _ _ found => found
  · exact fun _ _ found => found

theorem mem_foldl_addChange {rows : List VersionChangeRow} {row : VersionChangeRow}
    (member : row ∈ changes.foldl addChange rows) : row ∈ rows ∨ row ∈ changes := by
  induction changes generalizing rows with
  | nil => exact .inl member
  | cons change rest ih =>
      rcases ih member with added | later
      · unfold addChange at added
        split at added
        · exact .inl added
        · rcases List.mem_append.mp added with old | new
          · exact .inl old
          · rw [List.mem_singleton.mp new]
            exact .inr List.mem_cons_self
      · exact .inr (List.mem_cons_of_mem change later)

end Views

section Commit

variable {tables : Tables} {session : Session} {counts : RunCounts}
  {changes : List VersionChangeRow}

theorem committing_changes (sound : session.Sound tables)
    (phase : session.phase = .committing counts changes) : changes =
      if counts.pending = 0 then (session.written tables).derivedChanges session.runId else [] := by
  have derived := sound.derived
  unfold Session.Derived at derived
  rw [phase] at derived
  exact derived

theorem committing_changes_runId (sound : session.Sound tables)
    (phase : session.phase = .committing counts changes) :
    ∀ change ∈ changes, change.reprocessingRunId = session.runId := by
  rw [committing_changes sound phase]
  intro change member
  split at member
  · exact derivedChanges_runId member
  · cases member

theorem changeIn_append_item (work : Uuid) (change : ItemChange) {front : List RowWrite}
    (plain : ∀ write ∈ front, write.isItem = false) (item : WorkItemRow) :
    changeIn (front ++ [.item work change]) item = change.apply item := by
  induction front with
  | nil => rfl
  | cons write later ih =>
      have kept := ih fun other member => plain other (List.mem_cons_of_mem write member)
      have first := plain write List.mem_cons_self
      cases write with
      | item _ _ => cases first
      | observation _ => exact kept
      | detection _ => exact kept
      | evidence _ => exact kept

/-- An item that is not done after its update has left no rows. -/
theorem Session.Sound.failed_rows (sound : session.Sound tables)
    (phase : session.phase = .committing counts changes) {item : WorkItemRow}
    (pending : (changeIn session.rows item).status.isPending = true) :
    observationsIn session.rows = [] ∧ detectionsIn session.rows = [] := by
  have progress := sound.progress
  unfold Session.Progress at progress
  rw [phase] at progress
  obtain ⟨front, change, rows, plain, kind⟩ := progress
  rw [rows, changeIn_append_item _ change plain] at pending
  rcases kind with success | none
  · cases change with
    | succeeded => cases pending
    | deadLettered => cases success
    | requeued => cases success
  · rw [rows, none]
    exact ⟨rfl, rfl⟩

/-- An item after the commit: as it was, or the one that the transaction is about. -/
theorem Session.Sound.view_items (sound : session.Sound tables) (tablesSound : tables.Sound)
    (phase : session.phase = .committing counts changes) {item : WorkItemRow}
    (member : item ∈ (session.view tables).items) :
    (item ∈ tables.items ∧
      (item.runId, item.crawlSnapshotId) ≠ (session.work.runId, session.work.snapshotId)) ∨
    ((item.runId, item.crawlSnapshotId) = (session.work.runId, session.work.snapshotId) ∧
      (item.status.isPending = true →
        observationsIn session.rows = [] ∧ detectionsIn session.rows = [])) := by
  obtain ⟨held, heldIn, sameId, sameRun, sameSnapshot, _⟩ := sound.held.item
  rw [view_of_committing sound phase] at member
  rcases mem_updateWhere_cases member with ⟨old, apart⟩ | ⟨earlier, inTable, chosen, rfl⟩
  · refine .inl ⟨old, ?_⟩
    rw [← sameRun, ← sameSnapshot]
    intro same
    have equal := eq_of_key_eq tablesSound.keyed.placed.pairs old heldIn same
    rw [equal, sameId, beq_self_eq_true] at apart
    cases apart
  · have equal := eq_of_key_eq tablesSound.keyed.placed.ids inTable heldIn
      ((beq_iff_eq.mp chosen).trans sameId.symm)
    obtain ⟨_, run, snapshot⟩ := changeIn_keeps session.rows earlier
    refine .inr ⟨?_, sound.failed_rows phase⟩
    rw [run, snapshot, equal, sameRun, sameSnapshot]

/-- A run of the committed tables: another run, or the refreshed one. -/
theorem Session.Sound.view_runs (sound : session.Sound tables)
    (phase : session.phase = .committing counts changes) {own : RunRow}
    (member : own ∈ (session.view tables).runs) :
    (own ∈ tables.runs ∧ own.id ≠ session.runId) ∨
      ∃ earlier ∈ tables.runs, earlier.id = session.runId ∧
        own = earlier.refreshed counts session.completedAt := by
  rw [view_of_committing sound phase] at member
  rcases mem_updateWhere_cases member with ⟨old, apart⟩ | ⟨earlier, inTable, chosen, same⟩
  · exact .inl ⟨old, beq_eq_false_iff_ne.mp apart⟩
  · exact .inr ⟨earlier, inTable, beq_iff_eq.mp chosen, same⟩

/-- The transaction that counted nothing pending leaves its run complete. -/
theorem Session.Sound.view_complete (sound : session.Sound tables) (tablesSound : tables.Sound)
    (phase : session.phase = .committing counts changes) (none : counts.pending = 0)
    (ids : ((session.view tables).detections.map ReprocessedDetectionRow.id).Nodup)
    {earlier : RunRow} (inTable : earlier ∈ tables.runs) (same : earlier.id = session.runId) :
    (session.view tables).Complete (earlier.refreshed counts session.completedAt) := by
  have keyed := view_keyed sound tablesSound phase
  have unfinished := sound.held.unfinished tablesSound inTable (same.trans sound.runId)
  have counted : (session.view tables).countItems session.runId = counts := by
    rw [← sound.settled counts (by rw [phase]; rfl) none]
    unfold Tables.countItems
    rw [view_of_committing sound phase, written_eq session sound.own tables]
  have derived : changes = (session.view tables).derivedChanges session.runId := by
    have drawn := committing_changes sound phase
    rw [if_pos none] at drawn
    refine drawn.trans ?_
    unfold Tables.derivedChanges Tables.ranked Tables.rank
    rw [view_of_committing sound phase, written_eq session sound.own tables]
  have id : (earlier.refreshed counts session.completedAt).id = session.runId := same
  constructor
  · rw [id]
    exact countItems_pending_eq_zero.mp (by rw [counted, none])
  · rw [id, counted]
    rfl
  · rw [id, counted]
    rfl
  · rw [id, counted]
    rfl
  · rw [id, counted]
    rfl
  · have versionChanges : (session.view tables).versionChanges =
        changes.foldl addChange tables.versionChanges := by
      rw [view_of_committing sound phase]
    rw [id, versionChanges, ← derived]
    apply foldl_addChange_fresh _ (committing_changes_runId sound phase)
    · rw [derived]
      exact keyed.derived_detections ids session.runId
    · rw [← same]
      exact tablesSound.unfinished earlier inTable unfinished

/-- The commit keeps the tables sound. -/
theorem Session.Sound.commit (sound : session.Sound tables) (tablesSound : tables.Sound)
    (phase : session.phase = .committing counts changes)
    (ids : ((session.view tables).detections.map ReprocessedDetectionRow.id).Nodup) :
    (session.view tables).Sound := by
  have own := committing_changes_runId sound phase
  have view := view_of_committing sound phase
  have observations : (session.view tables).observations =
      tables.observations ++ observationsIn session.rows := by
    rw [view]
  have detections : (session.view tables).detections =
      tables.detections ++ detectionsIn session.rows := by
    rw [view]
  have nextId : (session.view tables).nextId = tables.nextId := by
    rw [view]
  have versionChanges : (session.view tables).versionChanges =
      changes.foldl addChange tables.versionChanges := by
    rw [view]
  obtain ⟨unobserved, undetected⟩ := sound.held.untouched tablesSound
  constructor
  · exact view_keyed sound tablesSound phase
  · exact ids
  · rw [detections, nextId]
    intro row member
    rcases List.mem_append.mp member with old | new
    · exact tablesSound.detectionsDrawn row old
    · exact sound.detectionsDrawn row new
  · rw [observations]
    intro item member pending row inRows
    rcases sound.view_items tablesSound phase member with ⟨old, apart⟩ | ⟨same, failed⟩
    · rcases List.mem_append.mp inRows with committed | new
      · exact tablesSound.unobserved item old pending row committed
      · rw [sound.observation_pair new]
        exact apart.symm
    · rw [(failed pending).1, List.append_nil] at inRows
      rw [same]
      exact unobserved row inRows
  · rw [detections]
    intro item member pending row inRows
    rcases sound.view_items tablesSound phase member with ⟨old, apart⟩ | ⟨same, failed⟩
    · rcases List.mem_append.mp inRows with committed | new
      · exact tablesSound.undetected item old pending row committed
      · rw [sound.detection_pair new]
        exact apart.symm
    · rw [(failed pending).2, List.append_nil] at inRows
      rw [same]
      exact undetected row inRows
  · rw [versionChanges, nextId]
    intro row member
    rcases mem_foldl_addChange member with old | new
    · exact tablesSound.changesDrawn row old
    · rw [own row new, sound.runId]
      exact tablesSound.pairDrawn sound.held.mem_fanOut
  · intro run member finished
    rcases sound.view_runs phase member with ⟨old, apart⟩ | ⟨earlier, inTable, same, rfl⟩
    · exact (tablesSound.finished run old finished).kept tablesSound.keyed
        (view_sameRun sound tablesSound phase own apart)
    · have none : counts.pending = 0 := by
        by_contra some
        change counts.status.isFinished = true at finished
        rw [RunCounts.status, if_neg some] at finished
        cases finished
      exact sound.view_complete tablesSound phase none ids inTable same
  · rw [versionChanges]
    intro run member unfinished row inRows
    rcases sound.view_runs phase member with ⟨old, apart⟩ | ⟨earlier, inTable, same, rfl⟩
    · rcases mem_foldl_addChange inRows with committed | new
      · exact tablesSound.unfinished run old unfinished row committed
      · rw [own row new]
        exact apart.symm
    · have before := sound.held.unfinished tablesSound inTable (same.trans sound.runId)
      rcases mem_foldl_addChange inRows with committed | new
      · exact tablesSound.unfinished earlier inTable before row committed
      · have some : counts.pending ≠ 0 := by
          intro none
          change counts.status.isFinished = false at unfinished
          rw [RunCounts.status, if_pos none] at unfinished
          split at unfinished <;> cases unfinished
        rw [committing_changes sound phase, if_neg some] at new
        cases new

end Commit

section Databases

variable {db : Database} {tables : Tables} {session : Session} {counts : RunCounts}
  {changes : List VersionChangeRow}

theorem Session.Sound.view_held (sound : session.Sound tables)
    (phase : session.phase = .committing counts changes) {work : WorkItem}
    (held : work.Held tables) (other : work.id ≠ session.work.id) :
    work.Held (session.view tables) := by
  have untouched := sound.written_untouched.trans (view_untouched sound phase)
  obtain ⟨item, member, sameId, rest⟩ := held.item
  constructor
  · refine ⟨item, ?_, sameId, rest⟩
    rw [view_of_committing sound phase]
    apply mem_updateWhere_of_not member
    rw [sameId]
    exact beq_eq_false_iff_ne.mpr other
  · rw [untouched.ruleOf]
    exact held.rule

theorem mem_close_sessions {itemId : Uuid} {tables : Tables} {other : Session} :
    other ∈ (db.close itemId tables).sessions ↔ other ∈ db.sessions ∧ other.work.id ≠ itemId := by
  unfold Database.close
  rw [List.mem_filter, bne_iff_ne]

/-- The closed transaction and the others are all there were. -/
theorem close_perm (sound : db.Sound) (member : session ∈ db.sessions) (tables : Tables) :
    db.sessions.Perm (session :: (db.close session.work.id tables).sessions) := by
  have own : (db.sessions.filter fun other => other.work.id == session.work.id) = [session] := by
    rw [filter_key_eq_toList sound.unique, (find?_key_eq_some sound.unique).mpr ⟨member, rfl⟩]
    rfl
  have parts := List.filter_append_perm (fun other => other.work.id == session.work.id) db.sessions
  rw [own] at parts
  exact parts.symm

theorem commit_sound (sound : db.Sound) (member : session ∈ db.sessions)
    (phase : session.phase = .committing counts changes) :
    (db.close session.work.id (session.view db.tables)).Sound := by
  have own := sound.sessions session member
  have drawn := committing_changes_runId own phase
  have detections : (session.view db.tables).detections =
      db.tables.detections ++ detectionsIn session.rows := by
    rw [view_of_committing own phase]
  have nextId : (session.view db.tables).nextId = db.tables.nextId := by
    rw [view_of_committing own phase]
  have perm : (db.tables.detections ++ db.sessions.flatMap fun session =>
      detectionsIn session.rows).Perm ((session.view db.tables).detections ++
        (db.close session.work.id (session.view db.tables)).sessions.flatMap fun session =>
          detectionsIn session.rows) := by
    have moved := (close_perm sound member (session.view db.tables)).flatMap_right fun session =>
      detectionsIn session.rows
    rw [List.flatMap_cons] at moved
    rw [detections, List.append_assoc]
    exact moved.append_left _
  have ids := (perm.map ReprocessedDetectionRow.id).nodup_iff.mp sound.detectionIds
  constructor
  · apply own.commit sound.tables phase
    rw [List.map_append] at ids
    exact (List.nodup_append.mp ids).1
  · intro work inLive
    apply own.view_held phase (sound.live work inLive)
    exact (List.nodup_append.mp sound.apart).2.2 _ (List.mem_map_of_mem inLive) _
      (List.mem_map_of_mem (f := fun session : Session => session.work.id) member)
  · intro other inSessions
    obtain ⟨inDb, apart⟩ := mem_close_sessions.mp inSessions
    have theirs := sound.sessions other inDb
    apply theirs.kept sound.tables (own.view_held phase theirs.held apart) (le_of_eq nextId.symm)
    intro counts counted none
    apply view_sameRun own sound.tables phase drawn
    intro sameRun
    exact apart (theirs.last counted none own.held (own.runId.symm.trans sameRun.symm)).symm
  · exact ((List.Sublist.refl _).append (List.filter_sublist.map _)).nodup sound.apart
  · exact ids

end Databases

end TechAtlas.Reprocessing
