import TechAtlas.Library.Lag
import TechAtlas.Reprocessing.Sessions

set_option autoImplicit false

/- What a finished run has to say: its status, its counts, and a version change for each
two neighbouring observations of a domain whose versions differ. -/
namespace TechAtlas.Reprocessing

open Library TechAtlas.Detector TechAtlas.Store TechAtlas.Storage

section Specification

variable (tables : Tables) (runId : Uuid)

/-- The order of `observed_at` and the snapshot's identifier. -/
def ReprocessedObservationRow.precedes (left right : ReprocessedObservationRow) : Prop :=
  left.observedAt < right.observedAt ∨
    left.observedAt = right.observedAt ∧ left.crawlSnapshotId < right.crawlSnapshotId

def Tables.domainOf (observation : ReprocessedObservationRow) : Option Uuid :=
  (tables.snapshots.find? fun row => row.id == observation.crawlSnapshotId).map
    SnapshotRow.domainId

/-- Two observations of the run for one domain, with none of the domain between them. -/
structure Tables.Adjacent (prior current : ReprocessedObservationRow) : Prop where
  inPrior : prior ∈ tables.observations ∧ prior.runId = runId
  inCurrent : current ∈ tables.observations ∧ current.runId = runId
  domain : tables.domainOf prior = tables.domainOf current
  order : prior.precedes current
  between : ∀ other ∈ tables.observations, other.runId = runId →
    tables.domainOf other = tables.domainOf current → ¬(prior.precedes other ∧ other.precedes current)

structure Tables.DetectedAs (observation : ReprocessedObservationRow)
    (detection : ReprocessedDetectionRow) : Prop where
  member : detection ∈ tables.detections
  runId : detection.runId = observation.runId
  snapshot : detection.crawlSnapshotId = observation.crawlSnapshotId
  version : detection.detectionRuleVersionId = observation.detectionRuleVersionId

/-- Adjacent observations whose detections both have versions, which differ. -/
def Tables.VersionsDiffer (prior current : ReprocessedObservationRow) : Prop :=
  tables.Adjacent runId prior current ∧ ∃ earlier later fromVersion toVersion,
    tables.DetectedAs prior earlier ∧ tables.DetectedAs current later ∧
    earlier.technologyVersion = some fromVersion ∧ later.technologyVersion = some toVersion ∧
    fromVersion ≠ toVersion

/-- The row says what changed between the two observations. -/
structure Tables.IsVersionChange (prior current : ReprocessedObservationRow)
    (change : VersionChangeRow) : Prop where
  adjacent : tables.Adjacent runId prior current
  earlier : ∃ detection, tables.DetectedAs prior detection ∧
    detection.id = change.priorReprocessedDetectionId ∧
    detection.technologyVersion = some change.fromVersion
  later : ∃ detection, tables.DetectedAs current detection ∧
    detection.id = change.currentReprocessedDetectionId ∧
    detection.technologyId = change.technologyId ∧
    detection.technologyVersion = some change.toVersion
  differ : change.fromVersion ≠ change.toVersion
  runId : change.reprocessingRunId = runId
  domain : tables.domainOf current = some change.domainId
  priorSnapshot : change.priorSnapshotId = prior.crawlSnapshotId
  currentSnapshot : change.currentSnapshotId = current.crawlSnapshotId
  observedAt : change.observedAt = current.observedAt

def VersionChangeRow.isBetween (prior current : ReprocessedObservationRow)
    (change : VersionChangeRow) : Bool :=
  change.reprocessingRunId == runId && change.priorSnapshotId == prior.crawlSnapshotId &&
    change.currentSnapshotId == current.crawlSnapshotId

/-- The run's row and its version changes agree with its items, observations and
detections. -/
structure Tables.Finalized (own : RunRow) : Prop where
  status : own.status = if ∃ item ∈ tables.items, item.runId = own.id ∧ item.status = .deadLettered
    then .partialFailed else .completed
  total : own.totalSnapshotCount = tables.items.countP fun item => item.runId == own.id
  succeeded : own.succeededSnapshotCount =
    tables.items.countP fun item => item.status == .succeeded && item.runId == own.id
  failed : own.failedSnapshotCount =
    tables.items.countP fun item => item.status == .deadLettered && item.runId == own.id
  changed : ∀ prior current, tables.VersionsDiffer own.id prior current →
    ∃ change, tables.versionChanges.filter (VersionChangeRow.isBetween own.id prior current) =
      [change] ∧ tables.IsVersionChange own.id prior current change
  only : ∀ change ∈ tables.versionChanges, change.reprocessingRunId = own.id →
    ∃ prior current, tables.IsVersionChange own.id prior current change

/-- What the statements of `refresh_run` compute when nothing is pending. -/
structure Tables.Complete (own : RunRow) : Prop where
  done : ∀ item ∈ tables.items, item.runId = own.id → item.status.isPending = false
  status : own.status = (tables.countItems own.id).status
  total : own.totalSnapshotCount = (tables.countItems own.id).total
  succeeded : own.succeededSnapshotCount = (tables.countItems own.id).succeeded
  failed : own.failedSnapshotCount = (tables.countItems own.id).failed
  changes : (tables.versionChanges.filter fun row => row.reprocessingRunId == own.id) =
    tables.derivedChanges own.id

end Specification

section Order

/-- The order of the window, where no two rows tie. -/
def RankedObservation.Lower (left right : RankedObservation) : Prop :=
  left.observedAt < right.observedAt ∨
    left.observedAt = right.observedAt ∧ left.crawlSnapshotId < right.crawlSnapshotId

theorem before_iff {left right : RankedObservation} : left.before right = true ↔
    left.observedAt < right.observedAt ∨
      left.observedAt = right.observedAt ∧ left.crawlSnapshotId ≤ right.crawlSnapshotId := by
  unfold RankedObservation.before
  rw [Bool.or_eq_true, Bool.and_eq_true, beq_iff_eq, decide_eq_true_eq, decide_eq_true_eq]

instance : Std.Total fun left right : RankedObservation => left.before right = true where
  total left right := by
    rw [before_iff, before_iff]
    rcases lt_trichotomy left.observedAt right.observedAt with lower | same | higher
    · exact .inl (.inl lower)
    · exact (le_total left.crawlSnapshotId right.crawlSnapshotId).imp
        (fun low => .inr ⟨same, low⟩) fun low => .inr ⟨same.symm, low⟩
    · exact .inr (.inl higher)

instance : IsTrans RankedObservation fun left right => left.before right = true where
  trans left middle right first second := by
    rw [before_iff] at first second ⊢
    rcases first with lower | ⟨same, low⟩
    · rcases second with lower' | ⟨same', _⟩
      · exact .inl (lt_trans lower lower')
      · exact .inl (same' ▸ lower)
    · rcases second with lower' | ⟨same', low'⟩
      · exact .inl (same ▸ lower')
      · exact .inr ⟨same.trans same', le_trans low low'⟩

theorem lower_asymm (left right : RankedObservation) (first : left.Lower right) :
    ¬right.Lower left := by
  rintro second
  rcases first with lower | ⟨same, low⟩
  · rcases second with lower' | ⟨same', _⟩
    · exact lt_asymm lower lower'
    · exact lower.ne same'.symm
  · rcases second with lower' | ⟨_, low'⟩
    · exact lower'.ne same.symm
    · exact lt_asymm low low'

theorem lagged_eq_lag (passed rows : List RankedObservation) :
    lagged passed rows = lag RankedObservation.samePartition passed rows := by
  induction rows generalizing passed with
  | nil => rfl
  | cons row rest ih => rw [lagged, lag, ih]

end Order

section Keys

variable {tables : Tables} {runId : Uuid}

def ReprocessedObservationRow.pair (row : ReprocessedObservationRow) : Uuid × Uuid :=
  (row.runId, row.crawlSnapshotId)

def ReprocessedDetectionRow.pair (row : ReprocessedDetectionRow) : Uuid × Uuid :=
  (row.runId, row.crawlSnapshotId)

/-- The rule version of a run, and its technology. -/
def Tables.ruleOf (tables : Tables) (runId : Uuid) : Option (Uuid × Uuid) := do
  let run ← tables.runIdentities.find? fun run => run.1 == runId
  let version ← tables.versions.find? fun version => version.id == run.2.2
  some (version.id, version.technologyId)

/-- Every observation and every detection is that of one item, by the rule of the run. -/
structure Tables.Keyed (tables : Tables) : Prop where
  placed : tables.Placed
  observedOnce : (tables.observations.map ReprocessedObservationRow.pair).Nodup
  detectedOnce : (tables.detections.map ReprocessedDetectionRow.pair).Nodup
  observed : ∀ row ∈ tables.observations, row.pair ∈ tables.fanOut
  detected : ∀ row ∈ tables.detections, row.pair ∈ tables.fanOut
  observedRule : ∀ row ∈ tables.observations, ∃ technologyId,
    tables.ruleOf row.runId = some (row.detectionRuleVersionId, technologyId)
  detectedRule : ∀ row ∈ tables.detections,
    tables.ruleOf row.runId = some (row.detectionRuleVersionId, row.technologyId)

theorem ruleOf_version {rule : Uuid × Uuid} (found : tables.ruleOf runId = some rule) :
    ∃ version, (tables.versions.find? fun version => version.id == rule.1) = some version ∧
      version.technologyId = rule.2 := by
  obtain ⟨run, _, found⟩ := Option.bind_eq_some_iff.mp found
  obtain ⟨version, inVersions, found⟩ := Option.bind_eq_some_iff.mp found
  cases found
  refine ⟨version, ?_, rfl⟩
  rw [beq_iff_eq.mp (find?_eq_some_mem inVersions).2]
  exact inVersions

theorem detection_find?_iff (keyed : tables.Keyed) {observation : ReprocessedObservationRow}
    {detection : ReprocessedDetectionRow} :
    (tables.detections.find? fun row => row.runId == observation.runId &&
      row.crawlSnapshotId == observation.crawlSnapshotId &&
      row.detectionRuleVersionId == observation.detectionRuleVersionId) = some detection ↔
      tables.DetectedAs observation detection := by
  constructor
  · intro found
    obtain ⟨member, same⟩ := find?_eq_some_mem found
    rw [Bool.and_eq_true, Bool.and_eq_true, beq_iff_eq, beq_iff_eq, beq_iff_eq] at same
    exact ⟨member, same.1.1, same.1.2, same.2⟩
  · rintro ⟨member, sameRun, sameSnapshot, sameVersion⟩
    cases found : tables.detections.find? fun row => row.runId == observation.runId &&
        row.crawlSnapshotId == observation.crawlSnapshotId &&
        row.detectionRuleVersionId == observation.detectionRuleVersionId with
    | none =>
        have absent := List.find?_eq_none.mp found detection member
        rw [sameRun, sameSnapshot, sameVersion, beq_self_eq_true, beq_self_eq_true,
          beq_self_eq_true] at absent
        exact absurd rfl absent
    | some other =>
        obtain ⟨inTable, same⟩ := find?_eq_some_mem found
        rw [Bool.and_eq_true, Bool.and_eq_true, beq_iff_eq, beq_iff_eq] at same
        have equal : other = detection := eq_of_key_eq keyed.detectedOnce inTable member
          (Prod.ext (same.1.1.trans sameRun.symm) (same.1.2.trans sameSnapshot.symm))
        rw [equal]

theorem Tables.DetectedAs.unique {observation : ReprocessedObservationRow}
    {first second : ReprocessedDetectionRow} (left : tables.DetectedAs observation first)
    (keyed : tables.Keyed) (right : tables.DetectedAs observation second) : first = second :=
  eq_of_key_eq keyed.detectedOnce left.member right.member
    (Prod.ext (left.runId.trans right.runId.symm) (left.snapshot.trans right.snapshot.symm))

/-- The rank of an observation in the tables' own terms. -/
structure Tables.RankOf (tables : Tables) (observation : ReprocessedObservationRow)
    (row : RankedObservation) : Prop where
  detectionId : ∀ id, row.detectionId = some id ↔
    ∃ detection, tables.DetectedAs observation detection ∧ detection.id = id
  snapshot : row.crawlSnapshotId = observation.crawlSnapshotId
  domain : tables.domainOf observation = some row.domainId
  rule : tables.ruleOf observation.runId =
    some (observation.detectionRuleVersionId, row.technologyId)
  version : ∀ text, row.technologyVersion = some text ↔
    ∃ detection, tables.DetectedAs observation detection ∧ detection.technologyVersion = some text
  observedAt : row.observedAt = observation.observedAt

theorem Tables.Keyed.rank (keyed : tables.Keyed) {observation : ReprocessedObservationRow}
    (member : observation ∈ tables.observations) :
    ∃ row, tables.rank observation = some row ∧ tables.RankOf observation row := by
  obtain ⟨snapshot, stored, same⟩ := keyed.placed.snapshotOf _ (keyed.observed observation member)
  have inSnapshots : (tables.snapshots.find? fun row => row.id == observation.crawlSnapshotId) =
      some snapshot := (find?_key_eq_some keyed.placed.formed.snapshots).mpr ⟨stored, same⟩
  obtain ⟨technologyId, rule⟩ := keyed.observedRule observation member
  obtain ⟨version, inVersions, technology⟩ := ruleOf_version rule
  change version.technologyId = technologyId at technology
  subst technology
  refine ⟨_, rank_eq_some.mpr ⟨snapshot, version, inSnapshots, inVersions, rfl⟩, ?_⟩
  constructor
  · intro id
    dsimp only
    rw [Option.map_eq_some_iff]
    simp only [detection_find?_iff keyed]
  · rfl
  · rw [Tables.domainOf, inSnapshots]
    rfl
  · exact rule
  · intro text
    dsimp only
    rw [Option.bind_eq_some_iff]
    simp only [detection_find?_iff keyed]
  · rfl

theorem mem_ranked {row : RankedObservation} : row ∈ tables.ranked runId ↔
    ∃ observation ∈ tables.observations, observation.runId = runId ∧
      tables.rank observation = some row := by
  unfold Tables.ranked
  rw [List.mem_insertionSort, List.mem_filterMap]
  simp only [List.mem_filter, beq_iff_eq, and_assoc]

/-- The observations of a run are of different snapshots. -/
theorem Tables.Keyed.ranked_distinct (keyed : tables.Keyed) (runId : Uuid) :
    (tables.ranked runId).Pairwise fun left right => left.crawlSnapshotId ≠ right.crawlSnapshotId := by
  have distinct : (tables.observations.filter fun row => row.runId == runId).Pairwise
      fun left right => left.crawlSnapshotId ≠ right.crawlSnapshotId := by
    apply List.Pairwise.imp_of_mem _
      ((List.pairwise_map.mp keyed.observedOnce).sublist List.filter_sublist)
    intro left right inLeft inRight apart same
    have leftRun := beq_iff_eq.mp (List.mem_filter.mp inLeft).2
    have rightRun := beq_iff_eq.mp (List.mem_filter.mp inRight).2
    exact apart (Prod.ext (leftRun.trans rightRun.symm) same)
  have symm : ∀ {left right : RankedObservation}, left.crawlSnapshotId ≠ right.crawlSnapshotId →
      right.crawlSnapshotId ≠ left.crawlSnapshotId := fun apart => apart.symm
  unfold Tables.ranked
  rw [(List.perm_insertionSort _ _).pairwise_iff symm, List.pairwise_filterMap]
  apply distinct.imp
  intro left right apart row found row' found'
  obtain ⟨_, _, _, _, rfl⟩ := rank_eq_some.mp found
  obtain ⟨_, _, _, _, rfl⟩ := rank_eq_some.mp found'
  exact apart

theorem Tables.Keyed.ranked_lower (keyed : tables.Keyed) (runId : Uuid) :
    (tables.ranked runId).Pairwise RankedObservation.Lower := by
  have sorted : (tables.ranked runId).Pairwise fun left right => left.before right = true :=
    List.pairwise_insertionSort _ _
  apply (sorted.and (keyed.ranked_distinct runId)).imp
  rintro left right ⟨before, apart⟩
  rcases before_iff.mp before with lower | ⟨same, low⟩
  · exact .inl lower
  · exact .inr ⟨same, lt_of_le_of_ne low apart⟩

end Keys

section Derivation

variable {tables : Tables} {runId : Uuid}

/-- Two ranked rows stand to each other as their observations do. -/
theorem lower_iff_precedes {left right : RankedObservation}
    {first second : ReprocessedObservationRow} (leftRank : tables.RankOf first left)
    (rightRank : tables.RankOf second right) : left.Lower right ↔ first.precedes second := by
  unfold RankedObservation.Lower ReprocessedObservationRow.precedes
  rw [leftRank.observedAt, rightRank.observedAt, leftRank.snapshot, rightRank.snapshot]

theorem samePartition_iff {left right : RankedObservation}
    {first second : ReprocessedObservationRow} (leftRank : tables.RankOf first left)
    (rightRank : tables.RankOf second right) (sameRun : first.runId = second.runId) :
    left.samePartition right = true ↔ tables.domainOf first = tables.domainOf second := by
  have technology : left.technologyId = right.technologyId := by
    have rules := leftRank.rule
    rw [sameRun, rightRank.rule] at rules
    exact (congrArg Prod.snd (Option.some.inj rules)).symm
  unfold RankedObservation.samePartition
  rw [technology, beq_self_eq_true, Bool.and_true, beq_iff_eq, leftRank.domain, rightRank.domain,
    Option.some_inj]

/-- `LAG` over the ranked rows gives the adjacent observations. -/
theorem Tables.Keyed.mem_lagged_iff (keyed : tables.Keyed) {prior row : RankedObservation}
    {first second : ReprocessedObservationRow}
    (inFirst : first ∈ tables.observations ∧ first.runId = runId)
    (inSecond : second ∈ tables.observations ∧ second.runId = runId)
    (priorRank : tables.rank first = some prior) (rowRank : tables.rank second = some row) :
    (some prior, row) ∈ lagged [] (tables.ranked runId) ↔ tables.Adjacent runId first second := by
  have rankOf : ∀ {observation ranked}, observation ∈ tables.observations →
      tables.rank observation = some ranked → tables.RankOf observation ranked := by
    intro observation ranked member found
    obtain ⟨other, found', rank⟩ := keyed.rank member
    rw [found] at found'
    cases found'
    exact rank
  have priorOf := rankOf inFirst.1 priorRank
  have rowOf := rankOf inSecond.1 rowRank
  rw [lagged_eq_lag, mem_lag_iff lower_asymm (keyed.ranked_lower runId)]
  constructor
  · rintro ⟨_, _, together, below, between⟩
    refine ⟨inFirst, inSecond,
      (samePartition_iff priorOf rowOf (inFirst.2.trans inSecond.2.symm)).mp together,
      (lower_iff_precedes priorOf rowOf).mp below, ?_⟩
    intro other member ofRun domain order
    obtain ⟨ranked, found, otherOf⟩ := keyed.rank member
    apply between ranked (mem_ranked.mpr ⟨other, member, ofRun, found⟩)
    · exact (samePartition_iff otherOf rowOf (ofRun.trans inSecond.2.symm)).mpr domain
    · exact ⟨(lower_iff_precedes priorOf otherOf).mpr order.1,
        (lower_iff_precedes otherOf rowOf).mpr order.2⟩
  · intro adjacent
    refine ⟨mem_ranked.mpr ⟨first, inFirst.1, inFirst.2, priorRank⟩,
      mem_ranked.mpr ⟨second, inSecond.1, inSecond.2, rowRank⟩,
      (samePartition_iff priorOf rowOf (inFirst.2.trans inSecond.2.symm)).mpr adjacent.domain,
      (lower_iff_precedes priorOf rowOf).mpr adjacent.order, ?_⟩
    intro ranked member together order
    obtain ⟨other, inTable, ofRun, found⟩ := mem_ranked.mp member
    have otherOf := rankOf inTable found
    apply adjacent.between other inTable ofRun
    · exact (samePartition_iff otherOf rowOf (ofRun.trans inSecond.2.symm)).mp together
    · exact ⟨(lower_iff_precedes priorOf otherOf).mp order.1,
        (lower_iff_precedes otherOf rowOf).mp order.2⟩

/-- A lagged row comes from two observations of the run. -/
theorem mem_lagged {prior row : RankedObservation}
    (member : (some prior, row) ∈ lagged [] (tables.ranked runId)) :
    prior ∈ tables.ranked runId ∧ row ∈ tables.ranked runId := by
  rw [lagged_eq_lag, mem_lag] at member
  obtain ⟨before, after, split, found⟩ := member
  have inBefore := List.mem_of_find?_eq_some found
  rw [List.append_nil, List.mem_reverse] at inBefore
  rw [split]
  exact ⟨List.mem_append_left _ inBefore, List.mem_append_right _ List.mem_cons_self⟩

/-- The rows that are derived are the version changes of the run. -/
theorem Tables.Keyed.mem_derivedChanges_iff (keyed : tables.Keyed) {change : VersionChangeRow} :
    change ∈ tables.derivedChanges runId ↔
      ∃ prior current, tables.IsVersionChange runId prior current change := by
  unfold Tables.derivedChanges
  rw [List.mem_filterMap]
  constructor
  · rintro ⟨⟨_, row⟩, member, selected⟩
    obtain ⟨prior, fromVersion, toVersion, priorId, currentId, rfl, before, now, differ, priorKnown,
      currentKnown, rfl⟩ := versionChange_eq_some.mp selected
    obtain ⟨inPrior, inRow⟩ := mem_lagged member
    obtain ⟨first, inFirst, firstRun, firstRank⟩ := mem_ranked.mp inPrior
    obtain ⟨second, inSecond, secondRun, secondRank⟩ := mem_ranked.mp inRow
    obtain ⟨_, same, priorOf⟩ := keyed.rank inFirst
    rw [firstRank] at same
    cases same
    obtain ⟨_, same, rowOf⟩ := keyed.rank inSecond
    rw [secondRank] at same
    cases same
    have adjacent := (keyed.mem_lagged_iff ⟨inFirst, firstRun⟩ ⟨inSecond, secondRun⟩ firstRank
      secondRank).mp member
    refine ⟨first, second, adjacent, ?_, ?_, differ, rfl, rowOf.domain, priorOf.snapshot,
      rowOf.snapshot, rowOf.observedAt⟩
    · obtain ⟨detection, detected, id⟩ := (priorOf.detectionId priorId).mp priorKnown
      obtain ⟨other, detected', version⟩ := (priorOf.version fromVersion).mp before
      have equal := detected.unique keyed detected'
      subst equal
      exact ⟨detection, detected, id, version⟩
    · obtain ⟨detection, detected, id⟩ := (rowOf.detectionId currentId).mp currentKnown
      obtain ⟨other, detected', version⟩ := (rowOf.version toVersion).mp now
      have equal := detected.unique keyed detected'
      subst equal
      refine ⟨detection, detected, id, ?_, version⟩
      have rules := keyed.detectedRule detection detected.member
      rw [detected.runId, rowOf.rule] at rules
      exact (congrArg Prod.snd (Option.some.inj rules)).symm
  · rintro ⟨first, second, changes⟩
    obtain ⟨prior, firstRank, priorOf⟩ := keyed.rank changes.adjacent.inPrior.1
    obtain ⟨row, secondRank, rowOf⟩ := keyed.rank changes.adjacent.inCurrent.1
    obtain ⟨earlier, detected, earlierId, earlierVersion⟩ := changes.earlier
    obtain ⟨later, detected', laterId, laterTechnology, laterVersion⟩ := changes.later
    have member := (keyed.mem_lagged_iff changes.adjacent.inPrior changes.adjacent.inCurrent
      firstRank secondRank).mpr changes.adjacent
    refine ⟨(some prior, row), member, versionChange_eq_some.mpr ⟨prior, change.fromVersion,
      change.toVersion, change.priorReprocessedDetectionId, change.currentReprocessedDetectionId,
      rfl, (priorOf.version _).mpr ⟨earlier, detected, earlierVersion⟩,
      (rowOf.version _).mpr ⟨later, detected', laterVersion⟩, changes.differ,
      (priorOf.detectionId _).mpr ⟨earlier, detected, earlierId⟩,
      (rowOf.detectionId _).mpr ⟨later, detected', laterId⟩, ?_⟩⟩
    have domain : row.domainId = change.domainId :=
      Option.some_inj.mp (rowOf.domain.symm.trans changes.domain)
    have technology : row.technologyId = change.technologyId := by
      have rules := keyed.detectedRule later detected'.member
      rw [detected'.runId, rowOf.rule] at rules
      exact (congrArg Prod.snd (Option.some.inj rules)).trans laterTechnology
    rw [domain, technology, priorOf.snapshot, rowOf.snapshot, rowOf.observedAt,
      ← changes.priorSnapshot, ← changes.currentSnapshot, ← changes.observedAt, ← changes.runId]

end Derivation

end TechAtlas.Reprocessing
