import TechAtlas.Library.Join
import TechAtlas.Reprocessing.VersionChanges

set_option autoImplicit false

/- Whether a run is finished once its items are done, over every interleaving of the
statements of the record calls. -/
namespace TechAtlas.Reprocessing

open Library TechAtlas.Detector TechAtlas.Store TechAtlas.Storage

section Completeness

variable {tables : Tables} {runId : Uuid}

/-- The changes of a run end at different snapshots. -/
theorem Tables.Keyed.derived_snapshots (keyed : tables.Keyed) (runId : Uuid) :
    ((tables.derivedChanges runId).map VersionChangeRow.currentSnapshotId).Nodup := by
  have distinct : (lagged [] (tables.ranked runId)).Pairwise fun left right =>
      left.2.crawlSnapshotId ≠ right.2.crawlSnapshotId := by
    have rows : (lagged [] (tables.ranked runId)).map Prod.snd = tables.ranked runId := by
      rw [lagged_eq_lag, lag_map_snd]
    have apart := keyed.ranked_distinct runId
    rw [← rows, List.pairwise_map] at apart
    exact apart
  unfold Tables.derivedChanges
  rw [List.Nodup, List.pairwise_map, List.pairwise_filterMap]
  apply distinct.imp
  intro left right apart first firstChange second secondChange
  obtain ⟨_, _, _, _, _, _, _, _, _, _, _, rfl⟩ := versionChange_eq_some.mp firstChange
  obtain ⟨_, _, _, _, _, _, _, _, _, _, _, rfl⟩ := versionChange_eq_some.mp secondChange
  exact apart

/-- They end at different detections. -/
theorem Tables.Keyed.derived_detections (keyed : tables.Keyed)
    (ids : (tables.detections.map ReprocessedDetectionRow.id).Nodup) (runId : Uuid) :
    ((tables.derivedChanges runId).map
      VersionChangeRow.currentReprocessedDetectionId).Nodup := by
  have snapshots := keyed.derived_snapshots runId
  rw [List.Nodup, List.pairwise_map] at snapshots ⊢
  apply snapshots.imp_of_mem
  intro first second inFirst inSecond apart same
  obtain ⟨_, firstCurrent, firstIs⟩ := keyed.mem_derivedChanges_iff.mp inFirst
  obtain ⟨_, secondCurrent, secondIs⟩ := keyed.mem_derivedChanges_iff.mp inSecond
  obtain ⟨firstDetection, firstDetected, firstId, _⟩ := firstIs.later
  obtain ⟨secondDetection, secondDetected, secondId, _⟩ := secondIs.later
  have equal : firstDetection = secondDetection :=
    eq_of_key_eq ids firstDetected.member secondDetected.member
      (firstId.trans (same.trans secondId.symm))
  apply apart
  rw [firstIs.currentSnapshot, secondIs.currentSnapshot, ← firstDetected.snapshot,
    ← secondDetected.snapshot, equal]

theorem foldl_addChange_eq {changes rows : List VersionChangeRow}
    (fresh : ∀ row ∈ rows, ∀ change ∈ changes, row.reprocessingRunId ≠ change.reprocessingRunId)
    (distinct : (changes.map VersionChangeRow.currentReprocessedDetectionId).Nodup) :
    changes.foldl addChange rows = rows ++ changes := by
  have apart : ∀ row ∈ rows, ∀ change ∈ changes,
      (row.reprocessingRunId == change.reprocessingRunId &&
        row.currentReprocessedDetectionId == change.currentReprocessedDetectionId) = false := by
    intro row member change inChanges
    rw [beq_eq_false_iff_ne.mpr (fresh row member change inChanges), Bool.false_and]
  clear fresh
  induction changes generalizing rows with
  | nil => exact (List.append_nil rows).symm
  | cons change rest ih =>
      rw [List.map_cons, List.nodup_cons] at distinct
      have added : addChange rows change = rows ++ [change] := by
        unfold addChange
        rw [if_neg]
        intro found
        obtain ⟨row, member, same⟩ := List.any_eq_true.mp found
        rw [apart row member change List.mem_cons_self] at same
        cases same
      rw [List.foldl_cons, added, ih distinct.2, List.append_assoc, List.singleton_append]
      intro row member later inRest
      rcases List.mem_append.mp member with old | new
      · exact apart row old later (List.mem_cons_of_mem change inRest)
      · rw [List.mem_singleton.mp new]
        have ne : change.currentReprocessedDetectionId ≠ later.currentReprocessedDetectionId := by
          intro same
          apply distinct.1
          rw [same]
          exact List.mem_map_of_mem inRest
        rw [beq_eq_false_iff_ne.mpr ne, Bool.and_false]

/-- All that is derived is inserted into a table without changes of the run. -/
theorem foldl_addChange_fresh {changes rows : List VersionChangeRow}
    (foreign : ∀ row ∈ rows, row.reprocessingRunId ≠ runId)
    (own : ∀ change ∈ changes, change.reprocessingRunId = runId)
    (distinct : (changes.map VersionChangeRow.currentReprocessedDetectionId).Nodup) :
    ((changes.foldl addChange rows).filter fun row => row.reprocessingRunId == runId) =
      changes := by
  have none : (rows.filter fun row => row.reprocessingRunId == runId) = [] := by
    rw [List.filter_eq_nil_iff]
    intro row member same
    exact foreign row member (beq_iff_eq.mp same)
  have all : (changes.filter fun row => row.reprocessingRunId == runId) = changes := by
    rw [List.filter_eq_self]
    intro change member
    exact beq_iff_eq.mpr (own change member)
  rw [foldl_addChange_eq _ distinct, List.filter_append, none, all, List.nil_append]
  intro row member change inChanges
  rw [own change inChanges]
  exact foreign row member

theorem countItems_pending_eq_zero : (tables.countItems runId).pending = 0 ↔
    ∀ item ∈ tables.items, item.runId = runId → item.status.isPending = false := by
  unfold Tables.countItems
  dsimp only
  rw [List.countP_eq_zero]
  simp only [List.mem_filter, beq_iff_eq, Bool.not_eq_true, and_imp]

/-- Two neighbouring observations whose versions differ have one row. -/
theorem Tables.Complete.changed {own : RunRow} (complete : tables.Complete own)
    (keyed : tables.Keyed) {prior current : ReprocessedObservationRow}
    (differ : tables.VersionsDiffer own.id prior current) :
    ∃ change, tables.versionChanges.filter (VersionChangeRow.isBetween own.id prior current) =
      [change] ∧ tables.IsVersionChange own.id prior current change := by
  obtain ⟨adjacent, earlier, later, fromVersion, toVersion, before, now, fromFound, toFound,
    apart⟩ := differ
  obtain ⟨row, _, rowOf⟩ := keyed.rank adjacent.inCurrent.1
  let change : VersionChangeRow := {
    reprocessingRunId := own.id
    domainId := row.domainId
    technologyId := later.technologyId
    priorSnapshotId := prior.crawlSnapshotId
    currentSnapshotId := current.crawlSnapshotId
    priorReprocessedDetectionId := earlier.id
    currentReprocessedDetectionId := later.id
    fromVersion := fromVersion
    toVersion := toVersion
    observedAt := current.observedAt }
  have isChange : tables.IsVersionChange own.id prior current change :=
    ⟨adjacent, ⟨earlier, before, rfl, fromFound⟩, ⟨later, now, rfl, rfl, toFound⟩, apart, rfl,
      rowOf.domain, rfl, rfl, rfl⟩
  have derived : change ∈ tables.derivedChanges own.id :=
    keyed.mem_derivedChanges_iff.mpr ⟨prior, current, isChange⟩
  have ofSnapshot : ((tables.derivedChanges own.id).filter fun other =>
      other.currentSnapshotId == current.crawlSnapshotId) = [change] := by
    rw [filter_key_eq_toList (keyed.derived_snapshots own.id),
      (find?_key_eq_some (keyed.derived_snapshots own.id)).mpr ⟨derived, rfl⟩]
    rfl
  have between : VersionChangeRow.isBetween own.id prior current change = true := by
    simp [VersionChangeRow.isBetween, change]
  refine ⟨change, ?_, isChange⟩
  calc tables.versionChanges.filter (VersionChangeRow.isBetween own.id prior current)
      = (tables.versionChanges.filter fun other => other.reprocessingRunId == own.id).filter
          (VersionChangeRow.isBetween own.id prior current) := by
        rw [List.filter_filter]
        apply List.filter_congr
        intro other _
        unfold VersionChangeRow.isBetween
        cases other.reprocessingRunId == own.id <;> simp
    _ = (tables.derivedChanges own.id).filter
          (VersionChangeRow.isBetween own.id prior current) := by
        rw [complete.changes]
    _ = ((tables.derivedChanges own.id).filter fun other =>
          other.currentSnapshotId == current.crawlSnapshotId).filter
            (VersionChangeRow.isBetween own.id prior current) := by
        rw [List.filter_filter]
        apply List.filter_congr
        intro other _
        unfold VersionChangeRow.isBetween
        cases other.currentSnapshotId == current.crawlSnapshotId <;> simp
    _ = [change] := by
        rw [ofSnapshot, List.filter_cons, if_pos between, List.filter_nil]

/-- A complete run is finalized. -/
theorem Tables.Complete.finalized {own : RunRow} (complete : tables.Complete own)
    (keyed : tables.Keyed) : tables.Finalized own := by
  have zero : (tables.countItems own.id).pending = 0 :=
    countItems_pending_eq_zero.mpr complete.done
  constructor
  · rw [complete.status, RunCounts.status, if_pos zero]
    by_cases failed : ∃ item ∈ tables.items, item.runId = own.id ∧ item.status = .deadLettered
    · obtain ⟨item, member, ofRun, dead⟩ := failed
      have some : (tables.countItems own.id).failed ≠ 0 := by
        intro none
        have absent := List.countP_eq_zero.mp none item
          (List.mem_filter.mpr ⟨member, beq_iff_eq.mpr ofRun⟩)
        rw [dead] at absent
        exact absent rfl
      rw [if_neg some, if_pos ⟨item, member, ofRun, dead⟩]
    · have none : (tables.countItems own.id).failed = 0 := by
        apply List.countP_eq_zero.mpr
        intro item member dead
        obtain ⟨inTable, ofRun⟩ := List.mem_filter.mp member
        exact failed ⟨item, inTable, beq_iff_eq.mp ofRun, beq_iff_eq.mp dead⟩
      rw [if_pos none, if_neg failed]
  · rw [complete.total, List.countP_eq_length_filter]
    rfl
  · rw [complete.succeeded, ← List.countP_filter]
    rfl
  · rw [complete.failed, ← List.countP_filter]
    rfl
  · intro prior current differ
    exact complete.changed keyed differ
  · intro change member ofRun
    have derived : change ∈ tables.derivedChanges own.id := by
      rw [← complete.changes]
      exact List.mem_filter.mpr ⟨member, beq_iff_eq.mpr ofRun⟩
    exact keyed.mem_derivedChanges_iff.mp derived

end Completeness

section Invariants

/-- A claimed item, and the rule that it is for. -/
structure WorkItem.Held (tables : Tables) (work : WorkItem) : Prop where
  item : ∃ row ∈ tables.items, row.id = work.id ∧ row.runId = work.runId ∧
    row.crawlSnapshotId = work.snapshotId ∧ row.status = .running
  rule : tables.ruleOf work.runId = some (work.detectionRuleVersionId, work.technologyId)

/-- An item that is not done has left nothing, a finished run is complete, and other runs
have no changes. -/
structure Tables.Sound (tables : Tables) : Prop where
  keyed : tables.Keyed
  detectionIds : (tables.detections.map ReprocessedDetectionRow.id).Nodup
  detectionsDrawn : ∀ row ∈ tables.detections, row.id < tables.nextId
  unobserved : ∀ item ∈ tables.items, item.status.isPending = true →
    ∀ row ∈ tables.observations, row.pair ≠ (item.runId, item.crawlSnapshotId)
  undetected : ∀ item ∈ tables.items, item.status.isPending = true →
    ∀ row ∈ tables.detections, row.pair ≠ (item.runId, item.crawlSnapshotId)
  changesDrawn : ∀ row ∈ tables.versionChanges, row.reprocessingRunId < tables.nextId
  finished : ∀ own ∈ tables.runs, own.status.isFinished = true → tables.Complete own
  unfinished : ∀ own ∈ tables.runs, own.status.isFinished = false →
    ∀ row ∈ tables.versionChanges, row.reprocessingRunId ≠ own.id

def RowWrite.isItem : RowWrite → Bool
  | .item _ _ => true
  | _ => false

def RowStatement.isUpdate : RowStatement → Bool
  | .updateItem _ => true
  | _ => false

def RowStatement.isLock : RowStatement → Bool
  | .lockItem => true
  | _ => false

def ItemChange.isSuccess : ItemChange → Bool
  | .succeeded _ => true
  | _ => false

/-- The update of the item comes last. Only a success writes anything before it. -/
def Session.Progress (session : Session) : Prop :=
  match session.phase with
  | .writing (statement :: rest) =>
      (∀ write ∈ session.rows, write.isItem = false) ∧ ∃ front change,
        statement :: rest = front ++ [.updateItem change] ∧
        (∀ other ∈ front, other.isUpdate = false) ∧
        (change.isSuccess = true ∨ session.rows = [] ∧ ∀ other ∈ front, other.isLock = true)
  | _ => ∃ front change, session.rows = front ++ [.item session.work.id change] ∧
      (∀ write ∈ front, write.isItem = false) ∧ (change.isSuccess = true ∨ front = [])

/-- What was derived is what the transaction would derive again. -/
def Session.Derived (tables : Tables) (session : Session) : Prop :=
  match session.phase with
  | .deriving counts => counts.pending = 0
  | .committing counts changes => changes =
      if counts.pending = 0 then (session.written tables).derivedChanges session.runId else []
  | _ => True

/-- A transaction is about its held item. The counts by which it finishes its run are
still those of the items. -/
structure Session.Sound (tables : Tables) (session : Session) : Prop where
  held : session.work.Held tables
  runId : session.runId = session.work.runId
  own : ∀ write ∈ session.rows, write.IsOf session.work
  observedOnce : (observationsIn session.rows).length ≤ 1
  detectedOnce : (detectionsIn session.rows).length ≤ 1
  detectionsDrawn : ∀ row ∈ detectionsIn session.rows, row.id < tables.nextId
  progress : session.Progress
  settled : ∀ counts, session.phase.counts = some counts → counts.pending = 0 →
    (session.written tables).countItems session.runId = counts
  derived : session.Derived tables

/-- The identifiers of all detections, committed or not. -/
def Database.detectionIds (db : Database) : List Uuid :=
  (db.tables.detections ++ db.sessions.flatMap fun session =>
    detectionsIn session.rows).map ReprocessedDetectionRow.id

structure Database.Sound (db : Database) : Prop where
  tables : db.tables.Sound
  live : ∀ work ∈ db.live, work.Held db.tables
  sessions : ∀ session ∈ db.sessions, session.Sound db.tables
  apart : (db.live.map WorkItem.id ++ db.sessions.map fun session => session.work.id).Nodup
  detectionIds : db.detectionIds.Nodup

end Invariants

section Views

variable {tables after : Tables} {session : Session}

theorem mem_observationsIn {rows : List RowWrite} {row : ReprocessedObservationRow} :
    row ∈ observationsIn rows ↔ .observation row ∈ rows := by
  unfold observationsIn
  rw [List.mem_filterMap]
  constructor
  · rintro ⟨write, member, found⟩
    cases write <;> cases found
    exact member
  · intro member
    exact ⟨_, member, rfl⟩

theorem mem_detectionsIn {rows : List RowWrite} {row : ReprocessedDetectionRow} :
    row ∈ detectionsIn rows ↔ .detection row ∈ rows := by
  unfold detectionsIn
  rw [List.mem_filterMap]
  constructor
  · rintro ⟨write, member, found⟩
    cases write <;> cases found
    exact member
  · intro member
    exact ⟨_, member, rfl⟩

theorem WorkItem.Held.mem_fanOut {work : WorkItem} (held : work.Held tables) :
    (work.runId, work.snapshotId) ∈ tables.fanOut := by
  obtain ⟨row, member, _, sameRun, sameSnapshot, _⟩ := held.item
  rw [← sameRun, ← sameSnapshot]
  exact List.mem_map_of_mem member

theorem Session.Sound.observation_pair (sound : session.Sound tables)
    {row : ReprocessedObservationRow} (member : row ∈ observationsIn session.rows) :
    row.pair = (session.work.runId, session.work.snapshotId) :=
  Prod.ext (sound.own _ (mem_observationsIn.mp member)).1.1
    (sound.own _ (mem_observationsIn.mp member)).1.2

theorem Session.Sound.detection_pair (sound : session.Sound tables)
    {row : ReprocessedDetectionRow} (member : row ∈ detectionsIn session.rows) :
    row.pair = (session.work.runId, session.work.snapshotId) :=
  Prod.ext (sound.own _ (mem_detectionsIn.mp member)).1.1
    (sound.own _ (mem_detectionsIn.mp member)).1.2

/-- Nothing is committed about an item that is still held. -/
theorem WorkItem.Held.untouched {work : WorkItem} (held : work.Held tables)
    (sound : tables.Sound) :
    (∀ row ∈ tables.observations, row.pair ≠ (work.runId, work.snapshotId)) ∧
      ∀ row ∈ tables.detections, row.pair ≠ (work.runId, work.snapshotId) := by
  obtain ⟨item, member, _, sameRun, sameSnapshot, running⟩ := held.item
  have pending : item.status.isPending = true := by
    rw [running]
    rfl
  rw [← sameRun, ← sameSnapshot]
  exact ⟨sound.unobserved item member pending, sound.undetected item member pending⟩

theorem written_ids (session : Session) (tables : Tables) :
    (updateWhere (fun row => row.id == session.work.id) (changeIn session.rows)
      tables.items).map WorkItemRow.id = tables.items.map WorkItemRow.id :=
  updateWhere_map WorkItemRow.id (fun row => (changeIn_keeps session.rows row).1) tables.items

theorem written_fanOut (session : Session) (tables : Tables) :
    (updateWhere (fun row => row.id == session.work.id) (changeIn session.rows)
      tables.items).map (fun item => (item.runId, item.crawlSnapshotId)) = tables.fanOut :=
  updateWhere_map (fun item : WorkItemRow => (item.runId, item.crawlSnapshotId))
    (fun row => Prod.ext (changeIn_keeps session.rows row).2.1 (changeIn_keeps session.rows row).2.2)
    tables.items

theorem Session.Sound.written_untouched (sound : session.Sound tables) :
    Untouched tables (session.written tables) := by
  rw [written_eq session sound.own tables]
  exact ⟨rfl, rfl, rfl, written_fanOut session tables, rfl, le_refl _⟩

/-- The tables that a transaction sees are keyed as the committed ones are. -/
theorem Session.Sound.written_keyed (sound : session.Sound tables) (tablesSound : tables.Sound) :
    (session.written tables).Keyed := by
  have untouched := sound.written_untouched
  obtain ⟨unobserved, undetected⟩ := sound.held.untouched tablesSound
  have keyed := tablesSound.keyed
  have fanOut := untouched.items
  rw [written_eq session sound.own tables] at untouched fanOut ⊢
  constructor
  · exact keyed.placed.moved untouched (written_ids session tables) rfl
  · apply nodup_map_append_few keyed.observedOnce sound.observedOnce
    intro old member new inRows
    rw [sound.observation_pair inRows]
    exact unobserved old member
  · apply nodup_map_append_few keyed.detectedOnce sound.detectedOnce
    intro old member new inRows
    rw [sound.detection_pair inRows]
    exact undetected old member
  · intro row member
    rw [fanOut]
    rcases List.mem_append.mp member with old | new
    · exact keyed.observed row old
    · rw [sound.observation_pair new]
      exact sound.held.mem_fanOut
  · intro row member
    rw [fanOut]
    rcases List.mem_append.mp member with old | new
    · exact keyed.detected row old
    · rw [sound.detection_pair new]
      exact sound.held.mem_fanOut
  · intro row member
    rcases List.mem_append.mp member with old | new
    · exact keyed.observedRule row old
    · have isOf := sound.own _ (mem_observationsIn.mp new)
      refine ⟨session.work.technologyId, ?_⟩
      rw [isOf.1.1, isOf.2]
      exact sound.held.rule
  · intro row member
    rcases List.mem_append.mp member with old | new
    · exact keyed.detectedRule row old
    · have isOf := sound.own _ (mem_detectionsIn.mp new)
      rw [isOf.1.1, isOf.2.1, isOf.2.2]
      exact sound.held.rule

/-- A transaction that finishes its run has counted every other item as done. -/
theorem Session.Sound.others_done (sound : session.Sound tables) {counts : RunCounts}
    (counted : session.phase.counts = some counts) (none : counts.pending = 0) :
    ∀ item ∈ tables.items, item.runId = session.runId → item.id ≠ session.work.id →
      item.status.isPending = false := by
  intro item member ofRun other
  have zero : ((session.written tables).countItems session.runId).pending = 0 := by
    rw [sound.settled counts counted none, none]
  apply countItems_pending_eq_zero.mp zero item _ ofRun
  rw [written_eq session sound.own tables]
  exact mem_updateWhere_of_not member (beq_eq_false_iff_ne.mpr other)

/-- The run of a held item is not finished. -/
theorem WorkItem.Held.unfinished {work : WorkItem} (held : work.Held tables) (sound : tables.Sound)
    {own : RunRow} (member : own ∈ tables.runs) (same : own.id = work.runId) :
    own.status.isFinished = false := by
  obtain ⟨item, inTable, _, sameRun, _, running⟩ := held.item
  by_contra finished
  rw [Bool.not_eq_false] at finished
  have done := (sound.finished own member finished).done item inTable (sameRun.trans same.symm)
  rw [running] at done
  cases done

/-- Two held items of one run are never both all that is left of it. -/
theorem Session.Sound.last (sound : session.Sound tables) {counts : RunCounts}
    (counted : session.phase.counts = some counts) (none : counts.pending = 0)
    {work : WorkItem} (held : work.Held tables) (same : work.runId = session.runId) :
    work.id = session.work.id := by
  obtain ⟨item, member, sameId, sameRun, _, running⟩ := held.item
  by_contra other
  have done := sound.others_done counted none item member (sameRun.trans same) (by rwa [sameId])
  rw [running] at done
  cases done

/-- A transaction stays sound while the tables change elsewhere. -/
theorem Session.Sound.kept (sound : session.Sound tables) (tablesSound : tables.Sound)
    (held : session.work.Held after) (later : tables.nextId ≤ after.nextId)
    (same : ∀ counts, session.phase.counts = some counts → counts.pending = 0 →
      SameRun session.runId tables after) : session.Sound after where
  held := held
  runId := sound.runId
  own := sound.own
  observedOnce := sound.observedOnce
  detectedOnce := sound.detectedOnce
  detectionsDrawn row member := lt_of_lt_of_le (sound.detectionsDrawn row member) later
  progress := sound.progress
  settled counts counted none := by
    rw [((same counts counted none).written sound.own).countItems]
    exact sound.settled counts counted none
  derived := by
    have derived := sound.derived
    unfold Session.Derived at derived ⊢
    split
    · rename_i counts phase
      rw [phase] at derived
      exact derived
    · rename_i counts changes phase
      rw [phase] at derived
      dsimp only at derived
      by_cases none : counts.pending = 0
      · have keeps := (same counts (by rw [phase]; rfl) none).written sound.own
        rw [if_pos none] at derived ⊢
        rw [derived, keeps.derivedChanges]
        intro observation member
        obtain ⟨row, found, _⟩ := (sound.written_keyed tablesSound).rank member
        exact ⟨row, found⟩
      · rw [if_neg none] at derived ⊢
        exact derived
    · trivial

end Views

end TechAtlas.Reprocessing
