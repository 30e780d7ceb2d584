import TechAtlas.Store.PublicRead
import TechAtlas.Store.Scheduler

set_option autoImplicit false

/- `PostgresAdoptionProjectionRepository`: how many domains have each technology
on a day, captured from the current technologies or rebuilt from the snapshots. -/
namespace TechAtlas.Store

open Library

structure AdoptionRow where
  observedOn : Int
  technologyId : Uuid
  domainCount : Nat
  capturedAt : Time
  deriving DecidableEq, Repr

section Capture

structure AdoptionCaptureResult where
  insertedRows : Nat
  alreadyCaptured : Bool
  deriving DecidableEq, Repr

/-- A day that has a row already is left as it is. -/
def captureDailyAdoption (db : Database) (daily : List AdoptionRow) (observedOn : Int)
    (capturedAt : Time) : List AdoptionRow × AdoptionCaptureResult :=
  if daily.any fun row => row.observedOn == observedOn then
    (daily, { insertedRows := 0, alreadyCaptured := true })
  else
    let rows := db.catalogue.technologies.map fun technology =>
      { observedOn := observedOn
        technologyId := technology.id
        domainCount := db.adoptionCount technology.id
        capturedAt := capturedAt }
    (daily ++ rows, { insertedRows := rows.length, alreadyCaptured := false })

end Capture

section Rebuild

/-- `Date::MAX`, the last day of the year 9999, counted from the first of 1970. -/
def lastDate : Int := 2932896

/-- `with_time(Time::MIDNIGHT).assume_utc()`, in microseconds. -/
def midnight (day : Int) : Time := day * 86400000000

/-- The snapshots before the cutoff of domains that are not archived. -/
def snapshotsBefore (db : Database) (cutoff : Time) : List SnapshotRow :=
  db.snapshots.filter fun row =>
    (db.domains.any fun domain => domain.id == row.domainId && domain.isActive) &&
      decide (row.capturedAt < cutoff)

/-- `DISTINCT ON (domain_id) ... ORDER BY domain_id, captured_at DESC`. -/
def latestSnapshots (db : Database) (cutoff : Time) : List SnapshotRow :=
  let rows := snapshotsBefore db cutoff
  (rows.map SnapshotRow.domainId).dedup.filterMap fun domainId =>
    greatest SnapshotRow.capturedAt (rows.filter fun row => row.domainId == domainId)

/-- The join with `detections`. -/
def Database.hasDetection (db : Database) (technologyId : Uuid) (snapshot : SnapshotRow) : Bool :=
  db.history.detections.any fun row =>
    row.crawlSnapshotId == snapshot.id && row.technologyId == technologyId

/-- `COUNT(DISTINCT latest_snapshots.domain_id)`, and no row counts as zero. -/
def observedCount (db : Database) (cutoff : Time) (technologyId : Uuid) : Nat :=
  (((latestSnapshots db cutoff).filter (db.hasDetection technologyId)).map
    SnapshotRow.domainId).dedup.length

/-- The rows of one day; `createdAt` is the column of `technologies`. -/
def rebuiltRows (db : Database) (createdAt : Uuid → Time) (day : Int) (rebuiltAt : Time) :
    List AdoptionRow :=
  let cutoff := midnight (day + 1)
  (db.catalogue.technologies.filter fun technology =>
    decide (createdAt technology.id < cutoff)).map fun technology =>
      { observedOn := day
        technologyId := technology.id
        domainCount := observedCount db cutoff technology.id
        capturedAt := rebuiltAt }

structure AdoptionHistoryRebuildResult where
  rebuiltDays : Nat
  insertedRows : Nat
  deriving DecidableEq, Repr

/-- The loop over the days, with the number of dates that are left after the
day. Every day is a transaction of its own, so that an error keeps the days
before it. -/
def rebuildDays (db : Database) (createdAt : Uuid → Time) (last : Int) (rebuiltAt : Time) :
    Nat → Int → List AdoptionRow → AdoptionHistoryRebuildResult →
      List AdoptionRow × Except SchedulerRepositoryError AdoptionHistoryRebuildResult
  -- the last date has no next day, from which the cutoff is taken
  | 0, _, daily, _ => (daily, .error .unavailable)
  | left + 1, day, daily, result =>
      let rows := rebuiltRows db createdAt day rebuiltAt
      let daily := (daily.filter fun row => row.observedOn != day) ++ rows
      let result : AdoptionHistoryRebuildResult :=
        { rebuiltDays := result.rebuiltDays + 1
          insertedRows := result.insertedRows + rows.length }
      if day = last then (daily, .ok result)
      else rebuildDays db createdAt last rebuiltAt left (day + 1) daily result

def rebuildAdoptionHistory (db : Database) (createdAt : Uuid → Time) (daily : List AdoptionRow)
    (first last : Int) (rebuiltAt : Time) :
    List AdoptionRow × Except SchedulerRepositoryError AdoptionHistoryRebuildResult :=
  rebuildDays db createdAt last rebuiltAt (lastDate - first).toNat first daily
    { rebuiltDays := 0, insertedRows := 0 }

end Rebuild

/-- The count that a day has for the technology. -/
def countOn (daily : List AdoptionRow) (day : Int) (technologyId : Uuid) : Option Nat :=
  (daily.find? fun row => row.observedOn == day && row.technologyId == technologyId).map
    AdoptionRow.domainCount

section Counts

variable {db : Database} {technology : TechnologyRow}

/-- The row of a technology is found by the day and its identifier. -/
theorem find_row {technologies : List TechnologyRow} {rowOf : TechnologyRow → AdoptionRow}
    {day : Int} (unique : (technologies.map TechnologyRow.id).Nodup)
    (member : technology ∈ technologies)
    (own : ∀ other, (rowOf other).observedOn = day ∧ (rowOf other).technologyId = other.id) :
    (technologies.map rowOf).find? (fun row => row.observedOn == day &&
      row.technologyId == technology.id) = some (rowOf technology) := by
  have named : ((fun row : AdoptionRow => row.observedOn == day &&
      row.technologyId == technology.id) ∘ rowOf) = fun other => other.id == technology.id := by
    funext other
    simp [own other]
  rw [List.find?_map, named, (find?_key_eq_some unique).mpr ⟨member, rfl⟩]
  rfl

theorem countOn_captured (member : technology ∈ db.catalogue.technologies) (day : Int)
    (capturedAt : Time) :
    countOn (captureDailyAdoption db [] day capturedAt).1 day technology.id =
      some (db.adoptionCount technology.id) := by
  unfold countOn captureDailyAdoption
  simp only [List.any_nil, Bool.false_eq_true, ↓reduceIte, List.nil_append]
  rw [find_row db.catalogue.technologies_id_nodup member]
  · rfl
  · exact fun other => ⟨rfl, rfl⟩

/-- One day is rebuilt, unless it is the last date there is. -/
theorem rebuild_day (createdAt : Uuid → Time) (daily : List AdoptionRow) (day : Int)
    (rebuiltAt : Time) :
    rebuildAdoptionHistory db createdAt daily day day rebuiltAt =
      if day < lastDate then
        ((daily.filter fun row => row.observedOn != day) ++ rebuiltRows db createdAt day rebuiltAt,
          .ok { rebuiltDays := 1
                insertedRows := (rebuiltRows db createdAt day rebuiltAt).length })
      else (daily, .error .unavailable) := by
  unfold rebuildAdoptionHistory
  by_cases inside : day < lastDate
  · obtain ⟨left, more⟩ : ∃ left, (lastDate - day).toNat = left + 1 :=
      ⟨(lastDate - day).toNat - 1, by omega⟩
    rw [if_pos inside, more, rebuildDays]
    simp only [↓reduceIte, Nat.zero_add]
  · have none : (lastDate - day).toNat = 0 := by omega
    rw [if_neg inside, none, rebuildDays]

theorem countOn_rebuilt (member : technology ∈ db.catalogue.technologies)
    (createdAt : Uuid → Time) (daily : List AdoptionRow) (day : Int) (rebuiltAt : Time) :
    countOn ((daily.filter fun row => row.observedOn != day) ++
        rebuiltRows db createdAt day rebuiltAt) day technology.id =
      if createdAt technology.id < midnight (day + 1) then
        some (observedCount db (midnight (day + 1)) technology.id)
      else none := by
  have dropped : (daily.filter fun row => row.observedOn != day).find? (fun row =>
      row.observedOn == day && row.technologyId == technology.id) = none := by
    rw [List.find?_eq_none]
    intro row kept
    have other := (List.mem_filter.mp kept).2
    simp only [bne_iff_ne] at other
    simp [other]
  unfold countOn
  rw [List.find?_append, dropped, Option.none_or, rebuiltRows]
  split
  · rename_i created
    have unique : ((db.catalogue.technologies.filter fun technology =>
        decide (createdAt technology.id < midnight (day + 1))).map TechnologyRow.id).Nodup :=
      db.catalogue.technologies_id_nodup.sublist (List.filter_sublist.map _)
    have listed : technology ∈ db.catalogue.technologies.filter fun technology =>
        decide (createdAt technology.id < midnight (day + 1)) :=
      List.mem_filter.mpr ⟨member, decide_eq_true created⟩
    rw [find_row unique listed]
    · rfl
    · exact fun other => ⟨rfl, rfl⟩
  · rename_i later
    rw [Option.map_eq_none_iff, List.find?_eq_none]
    intro row built same
    obtain ⟨other, listed, rfl⟩ := List.mem_map.mp built
    simp only [beq_self_eq_true, Bool.true_and, beq_iff_eq] at same
    have created := (List.mem_filter.mp listed).2
    rw [same] at created
    exact later (of_decide_eq_true created)

end Counts

end TechAtlas.Store
