import TechAtlas.Reprocessing.Finalization

set_option autoImplicit false

/- What each step of an interleaving keeps: the tables, the held items and the open
transactions stay sound. -/
namespace TechAtlas.Reprocessing

open Library TechAtlas.Detector TechAtlas.Store TechAtlas.Storage

section Growth

variable {tables after : Tables} {runId : Uuid}

theorem Tables.Complete.kept {own : RunRow} (complete : tables.Complete own) (keyed : tables.Keyed)
    (same : SameRun own.id tables after) : after.Complete own := by
  constructor
  · intro item member ofRun
    have inRun : item ∈ after.items.filter fun row => row.runId == own.id :=
      List.mem_filter.mpr ⟨member, beq_iff_eq.mpr ofRun⟩
    rw [same.items] at inRun
    exact complete.done item (List.mem_filter.mp inRun).1 ofRun
  · rw [same.countItems]
    exact complete.status
  · rw [same.countItems]
    exact complete.total
  · rw [same.countItems]
    exact complete.succeeded
  · rw [same.countItems]
    exact complete.failed
  · rw [same.changes, complete.changes, same.derivedChanges]
    intro observation member
    obtain ⟨row, found, _⟩ := keyed.rank member
    exact ⟨row, found⟩

theorem Grows.ruleOf (grows : Grows tables after) {rule : Uuid × Uuid}
    (found : tables.ruleOf runId = some rule) : after.ruleOf runId = some rule := by
  obtain ⟨run, inRuns, found⟩ := Option.bind_eq_some_iff.mp found
  obtain ⟨version, inVersions, found⟩ := Option.bind_eq_some_iff.mp found
  exact Option.bind_eq_some_iff.mpr ⟨run, find?_of_prefix grows.runs inRuns,
    Option.bind_eq_some_iff.mpr ⟨version, find?_of_prefix grows.versions inVersions, found⟩⟩

theorem Untouched.ruleOf (untouched : Untouched tables after) (runId : Uuid) :
    after.ruleOf runId = tables.ruleOf runId := by
  unfold Tables.ruleOf
  rw [untouched.runs, untouched.versions]

/-- A step that only adds: rule versions, snapshots, and a run with its items. -/
structure Tables.Extends (tables after : Tables) : Prop where
  placed : after.Placed
  grows : Grows tables after
  snapshots : tables.snapshots <+: after.snapshots
  items : ∃ added, after.items = tables.items ++ added ∧
    ∀ item ∈ added, item.runId = tables.nextId ∧ item.status = .queued
  runs : ∀ own ∈ after.runs, own ∈ tables.runs ∨
    own.id = tables.nextId ∧ (own.status.isFinished = true → after.Complete own) ∧
      ((after.countItems own.id).pending = 0 → own.status.isFinished = true)
  observations : after.observations = tables.observations
  detections : after.detections = tables.detections
  versionChanges : after.versionChanges = tables.versionChanges

theorem Tables.Extends.sameRun (extended : tables.Extends after) (drawn : runId < tables.nextId) :
    SameRun runId tables after := by
  obtain ⟨added, items, new⟩ := extended.items
  constructor
  · have none : (added.filter fun row => row.runId == runId) = [] := by
      rw [List.filter_eq_nil_iff]
      intro item member same
      rw [(new item member).1, beq_iff_eq] at same
      exact drawn.ne same.symm
    rw [items, List.filter_append, none, List.append_nil]
  · rw [extended.observations]
  · rw [extended.detections]
  · rw [extended.versionChanges]
  · exact fun _ _ found => find?_of_prefix extended.snapshots found
  · exact fun _ _ found => find?_of_prefix extended.grows.versions found

theorem Tables.Sound.runDrawn (sound : tables.Sound) {own : RunRow} (member : own ∈ tables.runs) :
    own.id < tables.nextId :=
  sound.keyed.placed.formed.runsDrawn own.identity (List.mem_map_of_mem member)

theorem Tables.Sound.pairDrawn (sound : tables.Sound) {pair : Uuid × Uuid}
    (member : pair ∈ tables.fanOut) : pair.1 < tables.nextId :=
  sound.keyed.placed.formed.itemsDrawn pair member

theorem Tables.Extends.mem_fanOut (extended : tables.Extends after) {pair : Uuid × Uuid}
    (member : pair ∈ tables.fanOut) : pair ∈ after.fanOut := by
  obtain ⟨added, items, _⟩ := extended.items
  rw [Tables.fanOut, items, List.map_append]
  exact List.mem_append_left _ member

theorem Tables.Sound.extended (sound : tables.Sound) (extended : tables.Extends after) :
    after.Sound := by
  have later := extended.grows.nextId
  have keyed := sound.keyed
  obtain ⟨added, items, new⟩ := extended.items
  constructor
  · constructor
    · exact extended.placed
    · rw [extended.observations]
      exact keyed.observedOnce
    · rw [extended.detections]
      exact keyed.detectedOnce
    · rw [extended.observations]
      exact fun row member => extended.mem_fanOut (keyed.observed row member)
    · rw [extended.detections]
      exact fun row member => extended.mem_fanOut (keyed.detected row member)
    · rw [extended.observations]
      intro row member
      obtain ⟨technologyId, rule⟩ := keyed.observedRule row member
      exact ⟨technologyId, extended.grows.ruleOf rule⟩
    · rw [extended.detections]
      exact fun row member => extended.grows.ruleOf (keyed.detectedRule row member)
  · rw [extended.detections]
    exact sound.detectionIds
  · rw [extended.detections]
    exact fun row member => lt_of_lt_of_le (sound.detectionsDrawn row member) later
  · rw [items, extended.observations]
    intro item member pending row observed
    rcases List.mem_append.mp member with old | fresh
    · exact sound.unobserved item old pending row observed
    · intro same
      have drawn := sound.pairDrawn (keyed.observed row observed)
      rw [same, (new item fresh).1] at drawn
      exact lt_irrefl _ drawn
  · rw [items, extended.detections]
    intro item member pending row detected
    rcases List.mem_append.mp member with old | fresh
    · exact sound.undetected item old pending row detected
    · intro same
      have drawn := sound.pairDrawn (keyed.detected row detected)
      rw [same, (new item fresh).1] at drawn
      exact lt_irrefl _ drawn
  · rw [extended.versionChanges]
    exact fun row member => lt_of_lt_of_le (sound.changesDrawn row member) later
  · intro own member finished
    rcases extended.runs own member with old | ⟨_, complete, _⟩
    · exact (sound.finished own old finished).kept keyed (extended.sameRun (sound.runDrawn old))
    · exact complete finished
  · rw [extended.versionChanges]
    intro own member unfinished row inChanges
    rcases extended.runs own member with old | ⟨id, _⟩
    · exact sound.unfinished own old unfinished row inChanges
    · rw [id]
      exact (sound.changesDrawn row inChanges).ne

theorem WorkItem.Held.extended {work : WorkItem} (held : work.Held tables)
    (extended : tables.Extends after) : work.Held after := by
  obtain ⟨row, member, rest⟩ := held.item
  obtain ⟨added, items, _⟩ := extended.items
  refine ⟨⟨row, ?_, rest⟩, extended.grows.ruleOf held.rule⟩
  rw [items]
  exact List.mem_append_left _ member

theorem Database.Sound.extended {db : Database} (sound : db.Sound)
    (extended : db.tables.Extends after) : ({ db with tables := after } : Database).Sound where
  tables := sound.tables.extended extended
  live work member := (sound.live work member).extended extended
  sessions session member := by
    have own := sound.sessions session member
    apply own.kept sound.tables (own.held.extended extended) extended.grows.nextId
    intro _ _ _
    apply extended.sameRun
    rw [own.runId]
    exact sound.tables.pairDrawn own.held.mem_fanOut
  apart := sound.apart
  detectionIds := by
    unfold Database.detectionIds
    dsimp only
    rw [extended.detections]
    exact sound.detectionIds

theorem publish_extends (placed : tables.Placed) (technologyId : Uuid) (rule : ActiveDetectionRule) :
    tables.Extends (tables.publish technologyId rule) where
  placed := placed.publish technologyId rule
  grows := publish_grows technologyId rule
  snapshots := List.prefix_refl _
  items := ⟨[], (List.append_nil _).symm, fun _ absent => nomatch absent⟩
  runs _ member := .inl member
  observations := rfl
  detections := rfl
  versionChanges := rfl

theorem capture_extends (placed : tables.Placed) (snapshot : SnapshotRow)
    (artifact : Option RawArtifactMetadata) :
    tables.Extends (tables.capture snapshot artifact) := by
  have captured := placed.capture snapshot artifact
  have grows := @capture_grows tables snapshot artifact
  unfold Tables.capture at captured grows ⊢
  split at captured
  next valid =>
    rw [if_pos valid] at grows ⊢
    exact ⟨captured, grows, List.prefix_append _ _,
      ⟨[], (List.append_nil _).symm, fun _ absent => nomatch absent⟩, fun _ member => .inl member,
      rfl, rfl, rfl⟩
  next refused =>
    rw [if_neg refused] at grows ⊢
    exact ⟨captured, grows, List.prefix_refl _,
      ⟨[], (List.append_nil _).symm, fun _ absent => nomatch absent⟩, fun _ member => .inl member,
      rfl, rfl, rfl⟩

theorem countItems_none (none : ∀ item ∈ tables.items, item.runId ≠ runId) :
    tables.countItems runId = ⟨0, 0, 0, 0⟩ := by
  have empty : (tables.items.filter fun item => item.runId == runId) = [] := by
    rw [List.filter_eq_nil_iff]
    intro item member same
    exact none item member (beq_iff_eq.mp same)
  unfold Tables.countItems
  rw [empty]
  rfl

theorem derivedChanges_none (none : ∀ row ∈ tables.observations, row.runId ≠ runId) :
    tables.derivedChanges runId = [] := by
  have empty : (tables.observations.filter fun row => row.runId == runId) = [] := by
    rw [List.filter_eq_nil_iff]
    intro row member same
    exact none row member (beq_iff_eq.mp same)
  unfold Tables.derivedChanges Tables.ranked
  rw [empty]
  rfl

/-- A run without items that are pending is finished at once. -/
theorem created_finished {call : StartCall} {versionId : Uuid}
    (none : ((call.created tables versionId).countItems tables.nextId).pending = 0) :
    (requestedRun tables.nextId versionId call.actorSubject call.key
      (itemsFor tables.nextId call.now (tables.nextId + 1) tables.snapshots).length
        call.now).status.isFinished = true := by
  have done := countItems_pending_eq_zero.mp none
  cases items : itemsFor tables.nextId call.now (tables.nextId + 1) tables.snapshots with
  | nil => rfl
  | cons item rest =>
      have member : item ∈ itemsFor tables.nextId call.now (tables.nextId + 1) tables.snapshots := by
        rw [items]
        exact List.mem_cons_self
      obtain ⟨_, _, _, _, _, rfl⟩ := mem_itemsFor member
      cases done _ (List.mem_append_right _ member) rfl

/-- A run that finds no snapshots is complete at once. -/
theorem created_complete {call : StartCall} {versionId : Uuid} (sound : tables.Sound)
    (empty : tables.snapshots = []) : (call.created tables versionId).Complete
      (requestedRun tables.nextId versionId call.actorSubject call.key 0 call.now) := by
  have items : (call.created tables versionId).items = tables.items := by
    change tables.items ++ itemsFor _ _ _ tables.snapshots = _
    rw [empty]
    exact List.append_nil _
  have none : ∀ item ∈ (call.created tables versionId).items, item.runId ≠ tables.nextId := by
    rw [items]
    intro item member
    exact (sound.pairDrawn (List.mem_map_of_mem
      (f := fun item : WorkItemRow => (item.runId, item.crawlSnapshotId)) member)).ne
  have counts := countItems_none none
  constructor
  · exact fun item member ofRun => absurd ofRun (none item member)
  · change _ = ((call.created tables versionId).countItems tables.nextId).status
    rw [counts]
    rfl
  · change _ = ((call.created tables versionId).countItems tables.nextId).total
    rw [counts]
    rfl
  · change _ = ((call.created tables versionId).countItems tables.nextId).succeeded
    rw [counts]
    rfl
  · change _ = ((call.created tables versionId).countItems tables.nextId).failed
    rw [counts]
    rfl
  · change tables.versionChanges.filter _ =
      (call.created tables versionId).derivedChanges tables.nextId
    rw [derivedChanges_none, List.filter_eq_nil_iff]
    · intro row member same
      exact (sound.changesDrawn row member).ne (beq_iff_eq.mp same)
    · intro row member
      exact (sound.pairDrawn (sound.keyed.observed row member)).ne

theorem created_extends {call : StartCall} {version : PublishedVersion} (sound : tables.Sound)
    (unused : ∀ run ∈ tables.runIdentities, run.2.1 ≠ call.key)
    (named : call.version tables = some version) (short : tables.snapshots.length < 2 ^ 31) :
    tables.Extends (call.created tables version.id) where
  placed := sound.keyed.placed.created unused named short
  grows := created_grows
  snapshots := List.prefix_refl _
  items := by
    refine ⟨_, rfl, ?_⟩
    intro item member
    obtain ⟨own, _, _, snapshot, _, rfl⟩ := mem_itemsFor member
    exact ⟨rfl, rfl⟩
  runs own member := by
    rcases List.mem_append.mp member with old | new
    · exact .inl old
    · rw [List.mem_singleton.mp new]
      refine .inr ⟨rfl, ?_, created_finished⟩
      intro finished
      have empty : tables.snapshots = [] := by
        cases snapshots : tables.snapshots with
        | nil => rfl
        | cons snapshot rest =>
            rw [snapshots] at finished
            cases finished
      have complete := @created_complete tables call version.id sound empty
      rw [empty]
      exact complete
  observations := rfl
  detections := rfl
  versionChanges := rfl

theorem start_extends (sound : tables.Sound) (call : StartCall) :
    tables.step (.start call) = tables ∨ tables.Extends (tables.step (.start call)) := by
  cases result : call.result tables with
  | error reason => exact .inl (step_start_of_error result)
  | ok started =>
      obtain ⟨after, id⟩ := started
      rw [step_start_of_ok result]
      obtain ⟨version, named, ⟨same, _⟩ | ⟨unused, _, created, short⟩⟩ := result_cases result
      · exact .inl same
      · rw [created]
        exact .inr (created_extends sound unused named short)

theorem start_sound {db : Database} (sound : db.Sound) (call : StartCall) :
    ({ db with tables := db.tables.step (.start call) } : Database).Sound := by
  rcases start_extends sound.tables call with same | extended
  · rw [same]
    exact sound
  · exact sound.extended extended

end Growth

section Claims

variable {tables after : Tables} {now : Time} {row : WorkItemRow} {work : WorkItem}

/-- The claimed item is for the rule of its run. -/
theorem claim_rule (success : claimNextReprocessingItem tables now = .ok (after, some work)) :
    tables.ruleOf work.runId = some (work.detectionRuleVersionId, work.technologyId) := by
  unfold claimNextReprocessingItem at success
  split at success
  next => cases success
  next item found =>
    obtain ⟨_, _, success⟩ := bind_eq_ok.mp success
    obtain ⟨⟨snapshot, version⟩, source, success⟩ := bind_eq_ok.mp success
    obtain ⟨_, _, success⟩ := bind_eq_ok.mp success
    cases success
    obtain ⟨run, inRuns, source⟩ := Option.bind_eq_some_iff.mp (orError_eq_ok.mp source)
    obtain ⟨_, _, source⟩ := Option.bind_eq_some_iff.mp source
    obtain ⟨_, inVersions, source⟩ := Option.bind_eq_some_iff.mp source
    cases source
    have identity : (tables.runIdentities.find? fun run => run.1 == item.runId) =
        some run.identity := by
      rw [Tables.runIdentities, List.find?_map]
      exact congrArg (Option.map RunRow.identity) inRuns
    exact Option.bind_eq_some_iff.mpr ⟨run.identity, identity,
      Option.bind_eq_some_iff.mpr ⟨version, inVersions, rfl⟩⟩

theorem Claimed.sameRun (claimed : Claimed tables after now row work)
    (unique : (tables.items.map WorkItemRow.id).Nodup) {runId : Uuid} (other : runId ≠ row.runId) :
    SameRun runId tables after := by
  have same := claimed.same
  subst same
  constructor
  · have keeps : ∀ item : WorkItemRow, ((item.claimedAtTime now).runId == runId) =
        (item.runId == runId) := fun _ => rfl
    dsimp only
    rw [filter_updateWhere keeps]
    apply updateWhere_eq_self
    intro item member
    obtain ⟨inTable, ofRun⟩ := List.mem_filter.mp member
    rw [beq_eq_false_iff_ne]
    intro sameId
    have equal := eq_of_key_eq unique inTable claimed.member sameId
    rw [equal] at ofRun
    exact other (beq_iff_eq.mp ofRun).symm
  · rfl
  · rfl
  · rfl
  · exact fun _ _ found => found
  · exact fun _ _ found => found

/-- An item of the claimed state was one with the same place, as far from being done. -/
theorem Claimed.older (claimed : Claimed tables after now row work)
    (unique : (tables.items.map WorkItemRow.id).Nodup) {item : WorkItemRow}
    (member : item ∈ after.items) : ∃ earlier ∈ tables.items,
      earlier.status.isPending = item.status.isPending ∧
        (earlier.runId, earlier.crawlSnapshotId) = (item.runId, item.crawlSnapshotId) := by
  have same := claimed.same
  subst same
  rcases mem_updateWhere_cases member with ⟨old, _⟩ | ⟨earlier, inTable, chosen, rfl⟩
  · exact ⟨item, old, rfl, rfl⟩
  · have own : earlier = row := eq_of_key_eq unique inTable claimed.member (beq_iff_eq.mp chosen)
    refine ⟨earlier, inTable, ?_, rfl⟩
    rw [own, claimed.queued]
    rfl

theorem Claimed.sound (claimed : Claimed tables after now row work)
    (untouched : Untouched tables after) (sound : tables.Sound) : after.Sound := by
  have keyed := sound.keyed
  have unique := keyed.placed.ids
  have observations : after.observations = tables.observations := by
    rw [claimed.same]
  have detections : after.detections = tables.detections := by
    rw [claimed.same]
  have changes : after.versionChanges = tables.versionChanges := by
    rw [claimed.same]
  have ids : after.items.map WorkItemRow.id = tables.items.map WorkItemRow.id := by
    rw [claimed.same]
    apply updateWhere_map
    exact fun _ => rfl
  have runs : ∀ own ∈ after.runs, (own ∈ tables.runs) ∨
      own.status = .running ∧ ∃ earlier ∈ tables.runs, earlier.id = own.id ∧
        earlier.status = .queued := by
    rw [claimed.same]
    intro own member
    rcases mem_updateWhere_cases member with ⟨old, _⟩ | ⟨earlier, inTable, chosen, rfl⟩
    · exact .inl old
    · rw [Bool.and_eq_true, beq_iff_eq, beq_iff_eq] at chosen
      exact .inr ⟨rfl, earlier, inTable, rfl, chosen.2⟩
  constructor
  · exact ⟨keyed.placed.moved untouched ids (by rw [claimed.same]),
      by rw [observations]; exact keyed.observedOnce,
      by rw [detections]; exact keyed.detectedOnce,
      by rw [observations, untouched.items]; exact keyed.observed,
      by rw [detections, untouched.items]; exact keyed.detected,
      by simp only [observations, untouched.ruleOf]; exact keyed.observedRule,
      by simp only [detections, untouched.ruleOf]; exact keyed.detectedRule⟩
  · rw [detections]
    exact sound.detectionIds
  · rw [detections]
    exact fun old member => lt_of_lt_of_le (sound.detectionsDrawn old member) untouched.nextId
  · rw [observations]
    intro item member pending
    obtain ⟨earlier, inTable, was, place⟩ := claimed.older unique member
    rw [← place]
    exact sound.unobserved earlier inTable (was.trans pending)
  · rw [detections]
    intro item member pending
    obtain ⟨earlier, inTable, was, place⟩ := claimed.older unique member
    rw [← place]
    exact sound.undetected earlier inTable (was.trans pending)
  · rw [changes]
    exact fun old member => lt_of_lt_of_le (sound.changesDrawn old member) untouched.nextId
  · intro own member finished
    rcases runs own member with old | ⟨running, _⟩
    · have complete := sound.finished own old finished
      apply complete.kept keyed
      apply claimed.sameRun unique
      intro ofRun
      have done := complete.done row claimed.member ofRun.symm
      rw [claimed.queued] at done
      cases done
    · rw [running] at finished
      cases finished
  · rw [changes]
    intro own member unfinished
    rcases runs own member with old | ⟨_, earlier, inTable, same, queued⟩
    · exact sound.unfinished own old unfinished
    · rw [← same]
      apply sound.unfinished earlier inTable
      rw [queued]
      rfl

theorem Claimed.held (claimed : Claimed tables after now row work)
    (untouched : Untouched tables after)
    (rule : tables.ruleOf work.runId = some (work.detectionRuleVersionId, work.technologyId)) :
    work.Held after := by
  refine ⟨⟨WorkItemRow.claimedAtTime now row, ?_, claimed.id.symm, claimed.runId.symm,
    claimed.snapshotId.symm, rfl⟩, ?_⟩
  · rw [claimed.same]
    exact mem_updateWhere_of_selected claimed.member (beq_self_eq_true _)
  · rw [untouched.ruleOf]
    exact rule

theorem Claimed.apart (claimed : Claimed tables after now row work)
    (unique : (tables.items.map WorkItemRow.id).Nodup) {other : WorkItem}
    (held : other.Held tables) : other.id ≠ work.id := by
  obtain ⟨item, member, sameId, _, _, running⟩ := held.item
  intro same
  have equal : item = row := eq_of_key_eq unique member claimed.member
    (sameId.trans (same.trans claimed.id))
  rw [equal, claimed.queued] at running
  cases running

theorem Claimed.keeps_held (claimed : Claimed tables after now row work)
    (untouched : Untouched tables after) (unique : (tables.items.map WorkItemRow.id).Nodup)
    {other : WorkItem} (held : other.Held tables) : other.Held after := by
  obtain ⟨item, member, sameId, rest⟩ := held.item
  have apart := claimed.apart unique held
  refine ⟨⟨item, ?_, sameId, rest⟩, ?_⟩
  · rw [claimed.same]
    apply mem_updateWhere_of_not member
    rw [beq_eq_false_iff_ne, sameId, ← claimed.id]
    exact apart
  · rw [untouched.ruleOf]
    exact held.rule

/-- A claim finds nothing in a run that a transaction is about to finish. -/
theorem Session.Sound.not_claimed {session : Session} (own : session.Sound tables)
    (unique : (tables.items.map WorkItemRow.id).Nodup) {counts : RunCounts}
    (counted : session.phase.counts = some counts) (none : counts.pending = 0)
    (claimed : Claimed tables after now row work) : session.runId ≠ row.runId := by
  intro ofRun
  have done := own.others_done counted none row claimed.member ofRun.symm
    (by rw [← claimed.id]; exact (claimed.apart unique own.held).symm)
  rw [claimed.queued] at done
  cases done

theorem claim_sound {db : Database} (sound : db.Sound)
    (success : claimNextReprocessingItem db.tables now = .ok (after, some work)) :
    ({ db with tables := after, live := db.live ++ [work] } : Database).Sound := by
  obtain ⟨row, claimed⟩ := claim_claimed success
  have untouched := claim_untouched success
  have unique := sound.tables.keyed.placed.ids
  constructor
  · exact claimed.sound untouched sound.tables
  · intro other member
    rcases List.mem_append.mp member with old | new
    · exact claimed.keeps_held untouched unique (sound.live other old)
    · rw [List.mem_singleton.mp new]
      exact claimed.held untouched (claim_rule success)
  · intro session member
    have own := sound.sessions session member
    apply own.kept sound.tables (claimed.keeps_held untouched unique own.held) untouched.nextId
    intro counts counted none
    exact claimed.sameRun unique (own.not_claimed unique counted none claimed)
  · rw [List.map_append, List.map_singleton, List.append_assoc, List.singleton_append,
      List.nodup_middle, List.nodup_cons, List.mem_append, List.mem_map, List.mem_map]
    refine ⟨?_, sound.apart⟩
    rintro (⟨other, member, same⟩ | ⟨session, member, same⟩)
    · exact claimed.apart unique (sound.live other member) same
    · exact claimed.apart unique (sound.sessions session member).held same
  · unfold Database.detectionIds
    have detections : after.detections = db.tables.detections := by
      rw [claimed.same]
    dsimp only
    rw [detections]
    exact sound.detectionIds

end Claims

end TechAtlas.Reprocessing
