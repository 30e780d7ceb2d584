import TechAtlas.Library.Group
import TechAtlas.Technologies.Capture

set_option autoImplicit false

/- The adoption history that the public API shows: a series of daily counts for the
leading technologies of the latest day and for the one that is asked for. -/
namespace TechAtlas.Technologies

open Library Store

section Model

/-- A day is shown as `YYYY-MM-DD`. -/
structure PublicAdoptionPoint where
  day : Int
  count : Nat
  deriving DecidableEq

structure PublicAdoptionSeries where
  slug : Text
  displayName : Text
  points : List PublicAdoptionPoint
  deriving DecidableEq

inductive PublicAdoptionHistoryStatus
  | ready
  | insufficientHistory
  deriving DecidableEq

structure PublicAdoptionHistory where
  status : PublicAdoptionHistoryStatus
  availableFrom : Option Int
  availableTo : Option Int
  series : List PublicAdoptionSeries
  deriving DecidableEq

variable (catalogue : Catalogue) (daily : List AdoptionRow) (since : Int)

/-- `WHERE observed_on >= $1`. -/
def rowsSince : List AdoptionRow := daily.filter fun row => decide (since ≤ row.observedOn)

/-- `COUNT(DISTINCT observed_on)`. -/
def dayCount : Nat := ((rowsSince daily since).map AdoptionRow.observedOn).dedup.length

/-- `ORDER BY domain_count DESC, technology_id`. -/
def leads (left right : AdoptionRow) : Bool :=
  decide (right.domainCount < left.domainCount) ||
    (left.domainCount == right.domainCount && decide (left.technologyId ≤ right.technologyId))

/-- `top_technologies` on `latest_day`. -/
def topTechnologies : List Uuid :=
  match ((rowsSince daily since).map AdoptionRow.observedOn).max? with
  | some latest =>
      (((onDay daily latest).insertionSort fun left right => leads left right).take 5).map
        AdoptionRow.technologyId
  | none => []

def requestedTechnology (technology : Option Text) : Option Uuid :=
  (technology.bind catalogue.technologyBySlug).map TechnologyRow.id

/-- `chosen_technologies`, with their priorities. -/
def chosenTechnologies (technology : Option Text) : List (Uuid × Nat) :=
  let top := topTechnologies daily since
  top.zipIdx 1 ++ ((requestedTechnology catalogue technology).filter fun id =>
    !top.contains id).toList.map fun id => (id, 6)

structure AdoptionHistoryRow where
  priority : Nat
  slug : Text
  displayName : Text
  day : Int
  count : Nat
  deriving DecidableEq

def joinTechnology (priority : Nat) (row : AdoptionRow) : Option AdoptionHistoryRow :=
  (catalogue.technologies.find? fun technology => technology.id == row.technologyId).map
    fun technology => {
      priority := priority
      slug := technology.slug
      displayName := technology.displayName
      day := row.observedOn
      count := row.domainCount }

/-- `ORDER BY chosen_technologies.priority, technology_adoption_daily.observed_on`. -/
def AdoptionHistoryRow.before (left right : AdoptionHistoryRow) : Bool :=
  decide (left.priority < right.priority) ||
    (left.priority == right.priority && decide (left.day ≤ right.day))

/-- The second query. -/
def adoptionRows (technology : Option Text) : List AdoptionHistoryRow :=
  ((chosenTechnologies catalogue daily since technology).flatMap fun chosen =>
    ((rowsSince daily since).filter fun row => row.technologyId == chosen.1).filterMap
      (joinTechnology catalogue chosen.2)).insertionSort fun left right => left.before right

/-- One turn of the loop over the rows. -/
def pushPoint (series : List PublicAdoptionSeries) (row : AdoptionHistoryRow) :
    List PublicAdoptionSeries :=
  let point : PublicAdoptionPoint := { day := row.day, count := row.count }
  match series.getLast?.filter fun current => current.slug == row.slug with
  | some current => series.dropLast ++ [{ current with points := current.points ++ [point] }]
  | none => series ++ [{ slug := row.slug, displayName := row.displayName, points := [point] }]

/-- Each of the two queries sees the table of its own time. -/
def adoptionHistory (first second : List AdoptionRow) (technology : Option Text) :
    PublicAdoptionHistory where
  status := if 2 ≤ dayCount first since then .ready else .insufficientHistory
  availableFrom := ((rowsSince first since).map AdoptionRow.observedOn).min?
  availableTo := ((rowsSince first since).map AdoptionRow.observedOn).max?
  series := (adoptionRows catalogue second since technology).foldl pushPoint []

end Model

section Specification

variable (catalogue : Catalogue) (daily : List AdoptionRow) (since : Int)

/-- The days that the table has, in order. -/
def daysSince : List Int :=
  ((rowsSince daily since).map AdoptionRow.observedOn).dedup.insertionSort (· ≤ ·)

/-- The points of a technology: its count on each day that has one. -/
def pointsOf (technologyId : Uuid) : List PublicAdoptionPoint :=
  (daysSince daily since).filterMap fun day =>
    (countOn daily day technologyId).map fun count => { day := day, count := count }

/-- The series of a technology, unless it has no point. -/
def seriesOf (technologyId : Uuid) : Option PublicAdoptionSeries :=
  let points := pointsOf daily since technologyId
  if points.isEmpty then none
  else (catalogue.technologies.find? fun technology => technology.id == technologyId).map
    fun technology =>
      { slug := technology.slug, displayName := technology.displayName, points := points }

/-- The series of an answer: those of the chosen technologies, in their order. A
technology of the latest day is among them, or five others are that have its count. -/
structure Shown (asked : Option Text) (series : List PublicAdoptionSeries) : Prop where
  exact : series = (chosenTechnologies catalogue daily since asked).filterMap fun chosen =>
    seriesOf catalogue daily since chosen.1
  distinct : (series.map PublicAdoptionSeries.slug).Nodup
  few : series.length ≤ 6
  requested : ∀ technology ∈ catalogue.technologies, asked = some technology.slug →
    ∀ shown, seriesOf catalogue daily since technology.id = some shown → shown ∈ series
  leaders : ∀ row ∈ daily, since ≤ row.observedOn →
    (∀ other ∈ daily, other.observedOn ≤ row.observedOn) →
    (∃ shown ∈ series, seriesOf catalogue daily since row.technologyId = some shown) ∨
      (topTechnologies daily since).length = 5 ∧ ∀ id ∈ topTechnologies daily since,
        ∃ shown ∈ series, seriesOf catalogue daily since id = some shown ∧
          ∃ count, row.domainCount ≤ count ∧ ⟨row.observedOn, count⟩ ∈ shown.points

end Specification

section Keys

variable {catalogue : Catalogue} {daily : List AdoptionRow} {since day : Int}
  {technologyId : Uuid}

/-- The primary key of `technology_adoption_daily`. -/
def DailyKeys (daily : List AdoptionRow) : Prop :=
  (daily.map fun row => (row.observedOn, row.technologyId)).Nodup

theorem countOn_eq_some (keys : DailyKeys daily) {count : Nat} :
    countOn daily day technologyId = some count ↔
      ∃ row ∈ daily, row.observedOn = day ∧ row.technologyId = technologyId ∧
        row.domainCount = count := by
  constructor
  · intro found
    obtain ⟨row, first, counted⟩ := Option.map_eq_some_iff.mp found
    obtain ⟨member, same⟩ := find?_eq_some_mem first
    rw [Bool.and_eq_true, beq_iff_eq, beq_iff_eq] at same
    exact ⟨row, member, same.1, same.2, counted⟩
  · rintro ⟨row, member, rfl, rfl, rfl⟩
    unfold countOn
    cases found : daily.find? fun other => other.observedOn == row.observedOn &&
        other.technologyId == row.technologyId with
    | none =>
        have absent := List.find?_eq_none.mp found row member
        simp at absent
    | some other =>
        obtain ⟨inDaily, same⟩ := find?_eq_some_mem found
        rw [Bool.and_eq_true, beq_iff_eq, beq_iff_eq] at same
        rw [eq_of_key_eq keys inDaily member (Prod.ext same.1 same.2)]
        rfl

theorem daysSince_sorted (daily : List AdoptionRow) (since : Int) :
    (daysSince daily since).Pairwise (· < ·) := by
  have sorted := List.pairwise_insertionSort (· ≤ ·)
    ((rowsSince daily since).map AdoptionRow.observedOn).dedup
  have distinct : (daysSince daily since).Nodup :=
    (List.perm_insertionSort _ _).nodup_iff.mpr (List.nodup_dedup _)
  exact (sorted.and distinct).imp fun both => lt_of_le_of_ne both.1 both.2

theorem mem_daysSince : day ∈ daysSince daily since ↔
    ∃ row ∈ daily, since ≤ row.observedOn ∧ row.observedOn = day := by
  rw [daysSince, List.mem_insertionSort, List.mem_dedup, List.mem_map]
  constructor
  · rintro ⟨row, member, same⟩
    obtain ⟨inDaily, late⟩ := List.mem_filter.mp member
    exact ⟨row, inDaily, of_decide_eq_true late, same⟩
  · rintro ⟨row, inDaily, late, same⟩
    exact ⟨row, List.mem_filter.mpr ⟨inDaily, decide_eq_true late⟩, same⟩

/-- A technology has at most one point for a day, in the order of the days. -/
theorem pointsOf_sorted (daily : List AdoptionRow) (since : Int) (technologyId : Uuid) :
    (pointsOf daily since technologyId).Pairwise fun first second => first.day < second.day := by
  rw [pointsOf, List.pairwise_filterMap]
  apply (daysSince_sorted daily since).imp
  intro first second before point isFirst other isSecond
  obtain ⟨_, _, rfl⟩ := Option.map_eq_some_iff.mp isFirst
  obtain ⟨_, _, rfl⟩ := Option.map_eq_some_iff.mp isSecond
  exact before

theorem mem_pointsOf (keys : DailyKeys daily) {point : PublicAdoptionPoint} :
    point ∈ pointsOf daily since technologyId ↔
      ∃ row ∈ daily, since ≤ row.observedOn ∧ row.technologyId = technologyId ∧
        point = { day := row.observedOn, count := row.domainCount } := by
  rw [pointsOf, List.mem_filterMap]
  constructor
  · rintro ⟨day, listed, made⟩
    obtain ⟨count, counted, rfl⟩ := Option.map_eq_some_iff.mp made
    obtain ⟨row, member, rfl, own, rfl⟩ := (countOn_eq_some keys).mp counted
    obtain ⟨other, _, late, same⟩ := mem_daysSince.mp listed
    exact ⟨row, member, same ▸ late, own, rfl⟩
  · rintro ⟨row, member, late, rfl, rfl⟩
    refine ⟨row.observedOn, mem_daysSince.mpr ⟨row, member, late, rfl⟩, ?_⟩
    rw [(countOn_eq_some keys).mpr ⟨row, member, rfl, rfl, rfl⟩]
    rfl

end Keys

section Blocks

variable {catalogue : Catalogue} {daily : List AdoptionRow} {since : Int}

def historyRow (priority : Nat) (technology : TechnologyRow) (point : PublicAdoptionPoint) :
    AdoptionHistoryRow where
  priority := priority
  slug := technology.slug
  displayName := technology.displayName
  day := point.day
  count := point.count

/-- The rows of a chosen technology, in the order of the days. -/
def blockOf (catalogue : Catalogue) (daily : List AdoptionRow) (since : Int)
    (chosen : Uuid × Nat) : List AdoptionHistoryRow :=
  match catalogue.technologies.find? fun technology => technology.id == chosen.1 with
  | some technology => (pointsOf daily since chosen.1).map (historyRow chosen.2 technology)
  | none => []

/-- Up to their order, these are the rows the query joins for the technology. -/
theorem joined_perm (keys : DailyKeys daily) (chosen : Uuid × Nat) :
    (((rowsSince daily since).filter fun row => row.technologyId == chosen.1).filterMap
      (joinTechnology catalogue chosen.2)).Perm (blockOf catalogue daily since chosen) := by
  unfold blockOf
  have own : ∀ row ∈ (rowsSince daily since).filter fun row => row.technologyId == chosen.1,
      row.technologyId = chosen.1 := fun row member =>
    beq_iff_eq.mp (List.mem_filter.mp member).2
  cases found : catalogue.technologies.find? fun technology => technology.id == chosen.1 with
  | none =>
      have empty : ((rowsSince daily since).filter fun row =>
          row.technologyId == chosen.1).filterMap (joinTechnology catalogue chosen.2) = [] := by
        rw [List.filterMap_eq_nil_iff]
        intro row member
        rw [joinTechnology, own row member, found]
        rfl
      rw [empty]
  | some technology =>
      have joined : ((rowsSince daily since).filter fun row =>
          row.technologyId == chosen.1).filterMap (joinTechnology catalogue chosen.2) =
            (((rowsSince daily since).filter fun row => row.technologyId == chosen.1).map
              fun row => { day := row.observedOn, count := row.domainCount }).map
                (historyRow chosen.2 technology) := by
        rw [List.map_map, ← List.filterMap_eq_map]
        apply List.filterMap_congr
        intro row member
        rw [joinTechnology, own row member, found]
        rfl
      rw [joined]
      apply List.Perm.map
      rw [List.perm_ext_iff_of_nodup]
      · intro point
        rw [mem_pointsOf keys, List.mem_map]
        constructor
        · rintro ⟨row, member, rfl⟩
          obtain ⟨inSince, same⟩ := List.mem_filter.mp member
          obtain ⟨inDaily, late⟩ := List.mem_filter.mp inSince
          exact ⟨row, inDaily, of_decide_eq_true late, beq_iff_eq.mp same, rfl⟩
        · rintro ⟨row, inDaily, late, same, rfl⟩
          refine ⟨row, ?_, rfl⟩
          rw [List.mem_filter, rowsSince, List.mem_filter]
          exact ⟨⟨inDaily, decide_eq_true late⟩, beq_iff_eq.mpr same⟩
      · have distinct : (((rowsSince daily since).filter fun row =>
            row.technologyId == chosen.1).map fun row =>
              (row.observedOn, row.technologyId)).Nodup :=
          keys.sublist ((List.filter_sublist.trans List.filter_sublist).map _)
        rw [List.Nodup, List.pairwise_map] at distinct ⊢
        apply distinct.imp_of_mem
        intro first second inFirst inSecond different same
        have sameDay : first.observedOn = second.observedOn := congrArg PublicAdoptionPoint.day same
        apply different
        rw [own first inFirst, own second inSecond, sameDay]
      · exact (pointsOf_sorted daily since chosen.1).imp fun before same =>
          absurd (congrArg PublicAdoptionPoint.day same) (ne_of_lt before)

theorem mem_blockOf {chosen : Uuid × Nat} {row : AdoptionHistoryRow}
    (member : row ∈ blockOf catalogue daily since chosen) :
    ∃ technology ∈ catalogue.technologies, technology.id = chosen.1 ∧
      ∃ point ∈ pointsOf daily since chosen.1, row = historyRow chosen.2 technology point := by
  unfold blockOf at member
  split at member
  · rename_i technology found
    obtain ⟨inCatalogue, same⟩ := find?_eq_some_mem found
    obtain ⟨point, inPoints, rfl⟩ := List.mem_map.mp member
    exact ⟨technology, inCatalogue, beq_iff_eq.mp same, point, inPoints, rfl⟩
  · cases member

theorem blockOf_sorted (chosen : Uuid × Nat) :
    (blockOf catalogue daily since chosen).Pairwise fun first second =>
      first.before second = true := by
  unfold blockOf
  split
  · rw [List.pairwise_map]
    apply (pointsOf_sorted daily since chosen.1).imp
    intro first second before
    simp [AdoptionHistoryRow.before, historyRow, le_of_lt before]
  · exact List.Pairwise.nil

theorem AdoptionHistoryRow.before_trans {first second third : AdoptionHistoryRow}
    (left : first.before second = true) (right : second.before third = true) :
    first.before third = true := by
  simp only [AdoptionHistoryRow.before, Bool.or_eq_true, Bool.and_eq_true, decide_eq_true_eq,
    beq_iff_eq] at left right ⊢
  omega

theorem AdoptionHistoryRow.before_total (first second : AdoptionHistoryRow) :
    first.before second = true ∨ second.before first = true := by
  simp only [AdoptionHistoryRow.before, Bool.or_eq_true, Bool.and_eq_true, decide_eq_true_eq,
    beq_iff_eq]
  omega

theorem AdoptionHistoryRow.before_antisymm {first second : AdoptionHistoryRow}
    (left : first.before second = true) (right : second.before first = true) :
    first.priority = second.priority ∧ first.day = second.day := by
  simp only [AdoptionHistoryRow.before, Bool.or_eq_true, Bool.and_eq_true, decide_eq_true_eq,
    beq_iff_eq] at left right
  omega

/-- The technologies are chosen once each, in the order of their priorities. -/
def Ranked (chosen : List (Uuid × Nat)) : Prop :=
  chosen.Pairwise fun first second => first.1 ≠ second.1 ∧ first.2 < second.2

theorem top_ranked {top : List Uuid} (distinct : top.Nodup) (start : Nat) :
    Ranked (top.zipIdx start) := by
  induction top generalizing start with
  | nil => exact List.Pairwise.nil
  | cons first rest ih =>
    rw [List.nodup_cons] at distinct
    rw [List.zipIdx_cons]
    refine List.pairwise_cons.mpr ⟨?_, ih distinct.2 (start + 1)⟩
    intro other member
    have inRest := List.fst_mem_of_mem_zipIdx member
    have later := List.le_snd_of_mem_zipIdx member
    refine ⟨?_, by omega⟩
    intro same
    rw [← same] at inRest
    exact distinct.1 inRest

theorem topTechnologies_nodup (keys : DailyKeys daily) (since : Int) :
    (topTechnologies daily since).Nodup := by
  unfold topTechnologies
  split
  · rename_i latest _
    have distinct : ((onDay daily latest).map fun row =>
        (row.observedOn, row.technologyId)).Nodup := keys.sublist (List.filter_sublist.map _)
    have ids : ((onDay daily latest).map AdoptionRow.technologyId).Nodup := by
      rw [List.Nodup, List.pairwise_map] at distinct ⊢
      apply distinct.imp_of_mem
      intro first second inFirst inSecond different same
      apply different
      rw [beq_iff_eq.mp (List.mem_filter.mp inFirst).2,
        beq_iff_eq.mp (List.mem_filter.mp inSecond).2, same]
    have sorted := (List.perm_insertionSort (fun left right : AdoptionRow =>
      leads left right) (onDay daily latest)).map AdoptionRow.technologyId
    exact (sorted.nodup_iff.mpr ids).sublist ((List.take_sublist _ _).map _)
  · exact List.nodup_nil

theorem topTechnologies_length (daily : List AdoptionRow) (since : Int) :
    (topTechnologies daily since).length ≤ 5 := by
  unfold topTechnologies
  split
  · rw [List.length_map]
    exact List.length_take_le _ _
  · exact Nat.zero_le _

theorem chosenTechnologies_ranked (keys : DailyKeys daily) (catalogue : Catalogue) (since : Int)
    (technology : Option Text) :
    Ranked (chosenTechnologies catalogue daily since technology) := by
  unfold chosenTechnologies
  have few := topTechnologies_length daily since
  refine List.pairwise_append.mpr ⟨top_ranked (topTechnologies_nodup keys since) 1, ?_, ?_⟩
  · cases (requestedTechnology catalogue technology).filter fun id =>
      !(topTechnologies daily since).contains id with
    | none => exact List.Pairwise.nil
    | some id => exact List.pairwise_singleton _ _
  · intro first inTop second requested
    obtain ⟨id, isRequested, rfl⟩ := List.mem_map.mp requested
    rw [Option.mem_toList, Option.filter_eq_some_iff] at isRequested
    have absent : id ∉ topTechnologies daily since := by simpa using isRequested.2
    have last := List.snd_lt_of_mem_zipIdx inTop
    have known := List.fst_mem_of_mem_zipIdx inTop
    refine ⟨?_, by simp only; omega⟩
    intro same
    rw [same] at known
    exact absent known

/-- Priority and day name a row. -/
theorem block_row_eq {chosen : List (Uuid × Nat)} (ranked : Ranked chosen)
    {first second : AdoptionHistoryRow}
    (inFirst : first ∈ chosen.flatMap (blockOf catalogue daily since))
    (inSecond : second ∈ chosen.flatMap (blockOf catalogue daily since))
    (left : first.before second = true) (right : second.before first = true) :
    first = second := by
  obtain ⟨one, oneChosen, inOne⟩ := List.mem_flatMap.mp inFirst
  obtain ⟨other, otherChosen, inOther⟩ := List.mem_flatMap.mp inSecond
  obtain ⟨technology, listed, itsId, point, isPoint, rfl⟩ := mem_blockOf inOne
  obtain ⟨technology', listed', itsId', point', isPoint', rfl⟩ := mem_blockOf inOther
  have same := AdoptionHistoryRow.before_antisymm left right
  have samePriority : one.2 = other.2 := same.1
  have sameDay : point.day = point'.day := same.2
  have priorities : (chosen.map Prod.snd).Nodup := by
    rw [List.Nodup, List.pairwise_map]
    exact ranked.imp fun order => ne_of_lt order.2
  have sameChosen : one = other := eq_of_key_eq priorities oneChosen otherChosen samePriority
  subst sameChosen
  have sameTechnology : technology = technology' :=
    eq_of_key_eq catalogue.technologies_id_nodup listed listed' (itsId.trans itsId'.symm)
  subst sameTechnology
  have days : ((pointsOf daily since one.1).map PublicAdoptionPoint.day).Nodup := by
    rw [List.Nodup, List.pairwise_map]
    exact (pointsOf_sorted daily since one.1).imp fun before => ne_of_lt before
  rw [eq_of_key_eq days isPoint isPoint' sameDay]

/-- The query's rows: one technology after the other, each in the order of the days. -/
theorem adoptionRows_eq (keys : DailyKeys daily) (catalogue : Catalogue) (since : Int)
    (technology : Option Text) :
    adoptionRows catalogue daily since technology =
      (chosenTechnologies catalogue daily since technology).flatMap
        (blockOf catalogue daily since) := by
  have ranked := chosenTechnologies_ranked keys catalogue since technology
  have perm := List.Perm.flatMap_left (chosenTechnologies catalogue daily since technology)
    fun chosen _ => @joined_perm catalogue daily since keys chosen
  have sorted : ((chosenTechnologies catalogue daily since technology).flatMap
      (blockOf catalogue daily since)).Pairwise fun first second =>
        first.before second = true := by
    rw [List.pairwise_flatMap]
    refine ⟨fun chosen _ => blockOf_sorted chosen, ranked.imp ?_⟩
    intro first second order row inFirst other inSecond
    obtain ⟨_, _, _, _, _, rfl⟩ := mem_blockOf inFirst
    obtain ⟨_, _, _, _, _, rfl⟩ := mem_blockOf inSecond
    simp [AdoptionHistoryRow.before, historyRow, order.2]
  have trans : IsTrans AdoptionHistoryRow fun first second => first.before second = true :=
    ⟨fun _ _ _ left right => AdoptionHistoryRow.before_trans left right⟩
  have total : Std.Total fun first second : AdoptionHistoryRow => first.before second = true :=
    ⟨AdoptionHistoryRow.before_total⟩
  unfold adoptionRows
  refine List.Perm.eq_of_pairwise ?_ (List.pairwise_insertionSort _ _) sorted
    ((List.perm_insertionSort _ _).trans perm)
  intro first second inFirst inSecond left right
  rw [List.mem_insertionSort] at inFirst
  exact block_row_eq ranked (perm.mem_iff.mp inFirst) inSecond left right

end Blocks

section Series

variable {catalogue : Catalogue} {daily : List AdoptionRow} {since : Int}

def toSeries (group : (Text × Text) × List PublicAdoptionPoint) : PublicAdoptionSeries where
  slug := group.1.1
  displayName := group.1.2
  points := group.2

/-- The header of a row's series, when a series is the row's, and the point it gets. -/
def rowHeader (row : AdoptionHistoryRow) : Text × Text := (row.slug, row.displayName)

def isOfSeries (header : Text × Text) (row : AdoptionHistoryRow) : Bool := header.1 == row.slug

def rowPoint (row : AdoptionHistoryRow) : PublicAdoptionPoint where
  day := row.day
  count := row.count

/-- The loop is the one that collects groups. -/
theorem pushPoint_toSeries (groups : List ((Text × Text) × List PublicAdoptionPoint))
    (row : AdoptionHistoryRow) :
    pushPoint (groups.map toSeries) row =
      (pushGroup rowHeader isOfSeries rowPoint groups row).map toSeries := by
  unfold pushPoint pushGroup
  rw [List.getLast?_map]
  cases last : groups.getLast? with
  | none =>
      rw [List.getLast?_eq_none_iff.mp last]
      rfl
  | some group =>
      by_cases own : (group.1.1 == row.slug) = true
      · simp [Option.filter, toSeries, isOfSeries, rowPoint, own]
      · simp [Option.filter, toSeries, isOfSeries, rowHeader, rowPoint, own]

theorem foldl_pushPoint (rows : List AdoptionHistoryRow)
    (groups : List ((Text × Text) × List PublicAdoptionPoint)) :
    rows.foldl pushPoint (groups.map toSeries) =
      (rows.foldl (pushGroup rowHeader isOfSeries rowPoint) groups).map toSeries := by
  induction rows generalizing groups with
  | nil => rfl
  | cons row rows ih => rw [List.foldl_cons, List.foldl_cons, pushPoint_toSeries, ih]

/-- The block of a chosen technology with its header, if the catalogue has it. -/
def headedBlock (catalogue : Catalogue) (daily : List AdoptionRow) (since : Int)
    (chosen : Uuid × Nat) : Option ((Text × Text) × List AdoptionHistoryRow) :=
  (catalogue.technologies.find? fun technology => technology.id == chosen.1).map
    fun technology => ((technology.slug, technology.displayName),
      (pointsOf daily since chosen.1).map (historyRow chosen.2 technology))

theorem headedBlock_snd (chosen : List (Uuid × Nat)) :
    (chosen.filterMap (headedBlock catalogue daily since)).flatMap Prod.snd =
      chosen.flatMap (blockOf catalogue daily since) := by
  induction chosen with
  | nil => rfl
  | cons first rest ih =>
    rw [List.filterMap_cons, List.flatMap_cons, ← ih, headedBlock, blockOf]
    cases catalogue.technologies.find? fun technology => technology.id == first.1 with
    | none => rfl
    | some technology => rfl

/-- Different technologies have different slugs. -/
theorem headedBlock_blocks {chosen : List (Uuid × Nat)} (ranked : Ranked chosen) :
    Blocks rowHeader isOfSeries (chosen.filterMap (headedBlock catalogue daily since)) := by
  constructor
  · intro block member row inBlock
    obtain ⟨one, _, headed⟩ := List.mem_filterMap.mp member
    obtain ⟨technology, _, rfl⟩ := Option.map_eq_some_iff.mp headed
    obtain ⟨point, _, rfl⟩ := List.mem_map.mp inBlock
    exact ⟨rfl, beq_self_eq_true _⟩
  · rw [List.pairwise_filterMap]
    apply ranked.imp
    intro first second order block isFirst block' isSecond row inBlock
    obtain ⟨technology, found, rfl⟩ := Option.map_eq_some_iff.mp isFirst
    obtain ⟨technology', found', rfl⟩ := Option.map_eq_some_iff.mp isSecond
    obtain ⟨point, _, rfl⟩ := List.mem_map.mp inBlock
    obtain ⟨listed, itsId⟩ := find?_eq_some_mem found
    obtain ⟨listed', itsId'⟩ := find?_eq_some_mem found'
    rw [isOfSeries, beq_eq_false_iff_ne]
    intro sameSlug
    have same : technology = technology' :=
      eq_of_key_eq catalogue.technologies_slug_nodup listed listed' sameSlug
    rw [← same] at itsId'
    exact order.1 ((beq_iff_eq.mp itsId).symm.trans (beq_iff_eq.mp itsId'))

theorem map_rowPoint (priority : Nat) (technology : TechnologyRow)
    (points : List PublicAdoptionPoint) :
    points.map (rowPoint ∘ historyRow priority technology) = points :=
  List.map_id points

theorem series_exact (keys : DailyKeys daily) (catalogue : Catalogue) (since : Int)
    (technology : Option Text) :
    (adoptionRows catalogue daily since technology).foldl pushPoint [] =
      (chosenTechnologies catalogue daily since technology).filterMap fun chosen =>
        seriesOf catalogue daily since chosen.1 := by
  have ranked := chosenTechnologies_ranked keys catalogue since technology
  have grouped := foldl_pushGroup rowPoint
    (@headedBlock_blocks catalogue daily since _ ranked)
  have looped := foldl_pushPoint (adoptionRows catalogue daily since technology) []
  rw [List.map_nil] at looped
  rw [looped, adoptionRows_eq keys, ← headedBlock_snd, grouped, List.map_map,
    List.filter_filterMap, List.map_filterMap]
  apply List.filterMap_congr
  intro chosen _
  unfold seriesOf headedBlock
  cases catalogue.technologies.find? fun technology => technology.id == chosen.1 with
  | none => simp
  | some technology =>
      by_cases empty : pointsOf daily since chosen.1 = []
      · simp [Option.filter, empty]
      · simp [Option.filter, empty, toSeries, map_rowPoint]

end Series

section Leaders

variable {daily : List AdoptionRow} {since latest : Int}

theorem leads_trans {first second third : AdoptionRow} (left : leads first second = true)
    (right : leads second third = true) : leads first third = true := by
  simp only [leads, Bool.or_eq_true, Bool.and_eq_true, decide_eq_true_eq, beq_iff_eq]
    at left right ⊢
  rcases left with more | ⟨equal, earlier⟩
  · left
    rcases right with further | ⟨equal, _⟩ <;> omega
  · rcases right with more | ⟨equal', later⟩
    · left
      omega
    · exact Or.inr ⟨equal.trans equal', Nat.le_trans earlier later⟩

theorem leads_total (first second : AdoptionRow) :
    leads first second = true ∨ leads second first = true := by
  simp only [leads, Bool.or_eq_true, Bool.and_eq_true, decide_eq_true_eq, beq_iff_eq]
  rcases Nat.lt_trichotomy first.domainCount second.domainCount with fewer | equal | more
  · exact Or.inr (Or.inl fewer)
  · rcases Nat.le_total first.technologyId second.technologyId with earlier | later
    · exact Or.inl (Or.inr ⟨equal, earlier⟩)
    · exact Or.inr (Or.inr ⟨equal.symm, later⟩)
  · exact Or.inl (Or.inl more)

/-- The day sorted by its counts, which falls from the leaders to the rest. -/
theorem leading_sorted (rows : List AdoptionRow) :
    (rows.insertionSort fun left right => leads left right).Pairwise fun first second =>
      second.domainCount ≤ first.domainCount := by
  have trans : IsTrans AdoptionRow fun first second => leads first second = true :=
    ⟨fun _ _ _ left right => leads_trans left right⟩
  have total : Std.Total fun first second : AdoptionRow => leads first second = true :=
    ⟨leads_total⟩
  apply (List.pairwise_insertionSort (fun first second => leads first second = true) rows).imp
  intro first second order
  simp only [leads, Bool.or_eq_true, Bool.and_eq_true, decide_eq_true_eq, beq_iff_eq] at order
  omega

/-- A technology of the latest day is left out only behind five that have its count. -/
theorem topTechnologies_lead (keys : DailyKeys daily)
    (last : ((rowsSince daily since).map AdoptionRow.observedOn).max? = some latest)
    {row : AdoptionRow} (member : row ∈ daily) (onLatest : row.observedOn = latest)
    (absent : row.technologyId ∉ topTechnologies daily since) :
    (topTechnologies daily since).length = 5 ∧ ∀ id ∈ topTechnologies daily since,
      ∃ count, countOn daily latest id = some count ∧ row.domainCount ≤ count := by
  have top : topTechnologies daily since =
      (((onDay daily latest).insertionSort fun left right => leads left right).take 5).map
        AdoptionRow.technologyId := by rw [topTechnologies, last]
  rw [top] at absent ⊢
  have listed : row ∈ (onDay daily latest).insertionSort fun left right => leads left right := by
    rw [List.mem_insertionSort, onDay, List.mem_filter]
    exact ⟨member, beq_iff_eq.mpr onLatest⟩
  have sorted := leading_sorted (onDay daily latest)
  have split := List.take_append_drop 5
    ((onDay daily latest).insertionSort fun left right => leads left right)
  rw [← split, List.mem_append] at listed
  have behind : row ∈ ((onDay daily latest).insertionSort fun left right =>
      leads left right).drop 5 := by
    rcases listed with taken | dropped
    · exact absurd (List.mem_map_of_mem taken) absent
    · exact dropped
  rw [← split, List.pairwise_append] at sorted
  constructor
  · have more := List.length_pos_of_mem behind
    rw [List.length_drop] at more
    rw [List.length_map, List.length_take]
    omega
  · intro id isTop
    obtain ⟨leader, inTop, rfl⟩ := List.mem_map.mp isTop
    have inDay := List.mem_of_mem_take inTop
    rw [List.mem_insertionSort, onDay, List.mem_filter, beq_iff_eq] at inDay
    exact ⟨leader.domainCount,
      (countOn_eq_some keys).mpr ⟨leader, inDay.1, inDay.2, rfl, rfl⟩,
      sorted.2.2 leader inTop row behind⟩

end Leaders

section Answers

variable {catalogue : Catalogue} {daily : List AdoptionRow} {since : Int} {asked : Option Text}

theorem seriesOf_eq_some {technologyId : Uuid} {shown : PublicAdoptionSeries} :
    seriesOf catalogue daily since technologyId = some shown ↔
      pointsOf daily since technologyId ≠ [] ∧
        ∃ technology ∈ catalogue.technologies, technology.id = technologyId ∧
          shown = { slug := technology.slug
                    displayName := technology.displayName
                    points := pointsOf daily since technologyId } := by
  unfold seriesOf
  by_cases empty : pointsOf daily since technologyId = []
  · simp [empty]
  · simp only [List.isEmpty_iff, empty, ↓reduceIte, Option.map_eq_some_iff,
      find?_key_eq_some catalogue.technologies_id_nodup, ne_eq, not_false_eq_true, true_and,
      and_assoc]
    constructor
    · rintro ⟨technology, listed, same, rfl⟩
      exact ⟨technology, listed, same, rfl⟩
    · rintro ⟨technology, listed, same, rfl⟩
      exact ⟨technology, listed, same, rfl⟩

/-- A row since the day gives its technology a series, with its count in it. -/
theorem seriesOf_row (keys : DailyKeys daily) {row : AdoptionRow} (member : row ∈ daily)
    (late : since ≤ row.observedOn)
    (known : ∃ technology ∈ catalogue.technologies, technology.id = row.technologyId) :
    ∃ shown, seriesOf catalogue daily since row.technologyId = some shown ∧
      ⟨row.observedOn, row.domainCount⟩ ∈ shown.points := by
  have point := (@mem_pointsOf daily since row.technologyId keys
    ⟨row.observedOn, row.domainCount⟩).mpr ⟨row, member, late, rfl, rfl⟩
  obtain ⟨technology, listed, same⟩ := known
  exact ⟨_, seriesOf_eq_some.mpr ⟨List.ne_nil_of_mem point, technology, listed, same, rfl⟩, point⟩

theorem chosen_top {id : Uuid} (top : id ∈ topTechnologies daily since) :
    ∃ priority, (id, priority) ∈ chosenTechnologies catalogue daily since asked := by
  obtain ⟨place, within, atPlace⟩ := List.getElem_of_mem top
  refine ⟨1 + place, List.mem_append_left _ ?_⟩
  rw [List.mk_add_mem_zipIdx_iff_getElem?, List.getElem?_eq_getElem within, atPlace]

theorem chosen_asked {technology : TechnologyRow} (listed : technology ∈ catalogue.technologies)
    (same : asked = some technology.slug) :
    ∃ priority, (technology.id, priority) ∈ chosenTechnologies catalogue daily since asked := by
  by_cases top : technology.id ∈ topTechnologies daily since
  · exact chosen_top top
  · have found : catalogue.technologyBySlug technology.slug = some technology :=
      (find?_key_eq_some catalogue.technologies_slug_nodup).mpr ⟨listed, rfl⟩
    refine ⟨6, List.mem_append_right _ ?_⟩
    rw [requestedTechnology, same, Option.bind_some, found, Option.map_some]
    simp [Option.filter, top]

theorem chosenTechnologies_length (catalogue : Catalogue) (daily : List AdoptionRow)
    (since : Int) (asked : Option Text) :
    (chosenTechnologies catalogue daily since asked).length ≤ 6 := by
  have few := topTechnologies_length daily since
  have one : ∀ found : Option Uuid, found.toList.length ≤ 1 := by
    intro found
    cases found <;> simp
  unfold chosenTechnologies
  have requested := one ((requestedTechnology catalogue asked).filter fun id =>
    !(topTechnologies daily since).contains id)
  simp only [List.length_append, List.length_zipIdx, List.length_map]
  omega

theorem shown_distinct {chosen : List (Uuid × Nat)} (ranked : Ranked chosen) :
    ((chosen.filterMap fun one => seriesOf catalogue daily since one.1).map
      PublicAdoptionSeries.slug).Nodup := by
  rw [List.Nodup, List.pairwise_map, List.pairwise_filterMap]
  apply ranked.imp
  intro first second order shown isFirst shown' isSecond sameSlug
  obtain ⟨_, technology, listed, itsId, rfl⟩ := seriesOf_eq_some.mp isFirst
  obtain ⟨_, technology', listed', itsId', rfl⟩ := seriesOf_eq_some.mp isSecond
  have same : technology = technology' :=
    eq_of_key_eq catalogue.technologies_slug_nodup listed listed' sameSlug
  rw [← same] at itsId'
  exact order.1 (itsId.symm.trans itsId')

theorem max?_eq_latest {row : AdoptionRow} (member : row ∈ daily)
    (late : since ≤ row.observedOn)
    (latest : ∀ other ∈ daily, other.observedOn ≤ row.observedOn) :
    ((rowsSince daily since).map AdoptionRow.observedOn).max? = some row.observedOn := by
  rw [List.max?_eq_some_iff]
  constructor
  · exact List.mem_map_of_mem (List.mem_filter.mpr ⟨member, decide_eq_true late⟩)
  · intro day listed
    obtain ⟨other, inSince, rfl⟩ := List.mem_map.mp listed
    exact latest other (List.mem_filter.mp inSince).1

/-- What the answer shows, for a table with its key and its references. -/
theorem series_shown (keys : DailyKeys daily)
    (known : ∀ row ∈ daily, ∃ technology ∈ catalogue.technologies,
      technology.id = row.technologyId) :
    Shown catalogue daily since asked
      ((adoptionRows catalogue daily since asked).foldl pushPoint []) := by
  have ranked := chosenTechnologies_ranked keys catalogue since asked
  rw [series_exact keys]
  have shows : ∀ {id : Uuid} {priority : Nat} {shown : PublicAdoptionSeries},
      (id, priority) ∈ chosenTechnologies catalogue daily since asked →
      seriesOf catalogue daily since id = some shown →
      shown ∈ (chosenTechnologies catalogue daily since asked).filterMap fun chosen =>
        seriesOf catalogue daily since chosen.1 :=
    fun chosen made => List.mem_filterMap.mpr ⟨_, chosen, made⟩
  refine ⟨rfl, shown_distinct ranked, ?_, ?_, ?_⟩
  · exact (List.length_filterMap_le _ _).trans (chosenTechnologies_length ..)
  · intro technology listed same shown made
    obtain ⟨priority, chosen⟩ := @chosen_asked catalogue daily since asked _ listed same
    exact shows chosen made
  · intro row member late latest
    have last := max?_eq_latest member late latest
    by_cases top : row.technologyId ∈ topTechnologies daily since
    · obtain ⟨shown, made, _⟩ := seriesOf_row keys member late (known row member)
      obtain ⟨priority, chosen⟩ := @chosen_top catalogue daily since asked _ top
      exact Or.inl ⟨shown, shows chosen made, made⟩
    · obtain ⟨full, lead⟩ := topTechnologies_lead keys last member rfl top
      refine Or.inr ⟨full, ?_⟩
      intro id isTop
      obtain ⟨count, counted, atLeast⟩ := lead id isTop
      obtain ⟨leader, inDaily, sameDay, rfl, rfl⟩ := (countOn_eq_some keys).mp counted
      obtain ⟨shown, made, point⟩ := seriesOf_row keys inDaily (sameDay ▸ late)
        (known leader inDaily)
      obtain ⟨priority, chosen⟩ := @chosen_top catalogue daily since asked _ isTop
      exact ⟨shown, shows chosen made, made, leader.domainCount, atLeast, sameDay ▸ point⟩

end Answers

section Runs

variable {seen : Database → Prop} {catalogue : Catalogue} {createdAt : Uuid → Time}
  {delayMinutes : Nat} {day : Int} {rows daily : List AdoptionRow} {since : Int}

theorem Origin.distinct (origin : Origin seen createdAt delayMinutes day rows) :
    (rows.map AdoptionRow.technologyId).Nodup := by
  cases origin with
  | none => exact List.nodup_nil
  | @captured source capturedAt read due =>
      have ids : (capturedRows source day capturedAt).map AdoptionRow.technologyId =
          source.catalogue.technologies.map TechnologyRow.id := by
        rw [capturedRows, List.map_map]
        rfl
      rw [ids]
      exact source.catalogue.technologies_id_nodup
  | @rebuilt source rebuiltAt read =>
      have ids : (rebuiltRows source createdAt day rebuiltAt).map AdoptionRow.technologyId =
          (source.catalogue.technologies.filter fun technology =>
            decide (createdAt technology.id < midnight (day + 1))).map TechnologyRow.id := by
        rw [rebuiltRows, List.map_map]
        rfl
      rw [ids]
      exact source.catalogue.technologies_id_nodup.sublist (List.filter_sublist.map _)

theorem dailyKeys_of_days
    (distinct : ∀ day, ((onDay daily day).map AdoptionRow.technologyId).Nodup) :
    DailyKeys daily := by
  induction daily with
  | nil => exact List.nodup_nil
  | cons row rest ih =>
    have own := distinct row.observedOn
    have kept : onDay (row :: rest) row.observedOn = row :: onDay rest row.observedOn :=
      List.filter_cons_of_pos (beq_self_eq_true row.observedOn)
    rw [kept, List.map_cons, List.nodup_cons] at own
    refine List.nodup_cons.mpr ⟨?_, ih fun day => (distinct day).sublist ?_⟩
    · intro repeated
      obtain ⟨other, inRest, same⟩ := List.mem_map.mp repeated
      have sameDay : other.observedOn = row.observedOn := congrArg Prod.fst same
      have sameId : other.technologyId = row.technologyId := congrArg Prod.snd same
      apply own.1
      rw [← sameId]
      exact List.mem_map_of_mem (List.mem_filter.mpr ⟨inRest, beq_iff_eq.mpr sameDay⟩)
    · exact ((List.sublist_cons_self row rest).filter _).map _

/-- The primary key of the table holds in every run. -/
theorem capturing_dailyKeys (crate : UrlCrate) (createdAt : Uuid → Time) (delayMinutes : Nat)
    (catalogue : Catalogue) (actions : List CaptureAction) :
    DailyKeys (capturing crate createdAt delayMinutes catalogue actions).daily :=
  dailyKeys_of_days fun day =>
    ((capturing_exclusive crate createdAt delayMinutes catalogue actions).whole day).distinct

/-- Every row is of a technology of the catalogue. -/
theorem capturing_known (crate : UrlCrate) (createdAt : Uuid → Time) (delayMinutes : Nat)
    (catalogue : Catalogue) (actions : List CaptureAction) {row : AdoptionRow}
    (member : row ∈ (capturing crate createdAt delayMinutes catalogue actions).daily) :
    ∃ technology ∈ catalogue.technologies, technology.id = row.technologyId := by
  have whole := (capturing_exclusive crate createdAt delayMinutes catalogue actions).whole
    row.observedOn
  refine (whole.mem ?_ (List.mem_filter.mpr ⟨member, beq_self_eq_true _⟩)).2
  rintro source ⟨earlier, later, _, rfl⟩
  exact capturing_catalogue crate createdAt delayMinutes catalogue earlier

/-- At any moment of any run, whatever was captured or rebuilt and whenever: the public
history shows the leading technologies of the latest day and the one asked for, each with
all of its counts since the day, once each and in the order of the days. -/
theorem adoption_history_shown (crate : UrlCrate) (createdAt : Uuid → Time) (delayMinutes : Nat)
    (catalogue : Catalogue) (actions more : List CaptureAction) (since : Int)
    (asked : Option Text) :
    Shown catalogue (capturing crate createdAt delayMinutes catalogue (actions ++ more)).daily
      since asked
      (adoptionHistory catalogue since
        (capturing crate createdAt delayMinutes catalogue actions).daily
        (capturing crate createdAt delayMinutes catalogue (actions ++ more)).daily asked).series :=
  series_shown (capturing_dailyKeys crate createdAt delayMinutes catalogue _)
    fun _ member => capturing_known crate createdAt delayMinutes catalogue _ member

end Runs

end TechAtlas.Technologies
