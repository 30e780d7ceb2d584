import TechAtlas.Store.Adoption
import TechAtlas.Store.Calls
import TechAtlas.Store.Keys

set_option autoImplicit false

/- Scheduler replicas capture the adoption of a day while domains are crawled and a day
is rebuilt now and then. A capture is a transaction of two statements, and the primary
key of the table, not the first of them, decides which capture of a day is kept. -/
namespace TechAtlas.Technologies

open Library Store

section Model

/-- `current_minutes`. -/
def minuteOfDay (now : Time) : Int := now % 86400000000 / 60000000

/-- The rows of the INSERT. -/
def capturedRows (db : Database) (observedOn : Int) (capturedAt : Time) : List AdoptionRow :=
  db.catalogue.technologies.map fun technology =>
    { observedOn := observedOn
      technologyId := technology.id
      domainCount := db.adoptionCount technology.id
      capturedAt := capturedAt }

def sameKey (left right : AdoptionRow) : Bool :=
  left.observedOn == right.observedOn && left.technologyId == right.technologyId

/-- A row of one set has the key of a row of the other. -/
def conflicts (rows others : List AdoptionRow) : Bool :=
  rows.any fun row => others.any fun other => sameKey row other

/-- `selected` rows have been read by the INSERT and wait for their keys; `inserted` ones
hold them until the transaction ends. -/
inductive CaptureStatement
  | begun
  | absent
  | selected (rows : List AdoptionRow)
  | inserted (rows : List AdoptionRow)
  | ended
  deriving DecidableEq

structure Capture where
  observedOn : Int
  capturedAt : Time
  statement : CaptureStatement
  deriving DecidableEq

structure Capturing where
  db : Database
  daily : List AdoptionRow
  captures : List Capture

def Capturing.initial (catalogue : Catalogue) : Capturing where
  db := Database.initial catalogue
  daily := []
  captures := []

inductive CaptureAction
  | store (call : Call)
  | tick (now : Time)
  | checkExists (place : Nat)
  | select (place : Nat)
  | insert (place : Nat)
  | commit (place : Nat)
  | abort (place : Nat)
  | rebuildDay (day : Int) (rebuiltAt : Time)

def Capture.held (capture : Capture) : List AdoptionRow :=
  match capture.statement with
  | .inserted rows => rows
  | _ => []

section Steps

variable (s : Capturing)

def Capturing.setStatement (place : Nat) (capture : Capture) (statement : CaptureStatement) :
    Capturing :=
  { s with captures := s.captures.set place { capture with statement := statement } }

/-- `capture_daily_adoption_if_due`. -/
def Capturing.tick (delayMinutes : Nat) (now : Time) : Capturing :=
  if minuteOfDay now < delayMinutes then s
  else { s with captures := s.captures ++ [⟨dayOf now, now, .begun⟩] }

def Capturing.checkExists (place : Nat) : Capturing :=
  match s.captures[place]? with
  | some ⟨observedOn, capturedAt, .begun⟩ =>
      s.setStatement place ⟨observedOn, capturedAt, .begun⟩
        (if s.daily.any fun row => row.observedOn == observedOn then .ended else .absent)
  | _ => s

def Capturing.select (place : Nat) : Capturing :=
  match s.captures[place]? with
  | some ⟨observedOn, capturedAt, .absent⟩ =>
      s.setStatement place ⟨observedOn, capturedAt, .absent⟩
        (.selected (capturedRows s.db observedOn capturedAt))
  | _ => s

/-- A key that is committed fails the transaction; one that another holds is waited for. -/
def Capturing.insert (place : Nat) : Capturing :=
  match s.captures[place]? with
  | some ⟨observedOn, capturedAt, .selected rows⟩ =>
      if conflicts rows s.daily then
        s.setStatement place ⟨observedOn, capturedAt, .selected rows⟩ .ended
      else if s.captures.any fun other => conflicts rows other.held then s
      else s.setStatement place ⟨observedOn, capturedAt, .selected rows⟩ (.inserted rows)
  | _ => s

def Capturing.commit (place : Nat) : Capturing :=
  match s.captures[place]? with
  | some ⟨observedOn, capturedAt, .inserted rows⟩ =>
      { s with daily := s.daily ++ rows }.setStatement place
        ⟨observedOn, capturedAt, .inserted rows⟩ .ended
  | _ => s

/-- An error or a lost connection rolls the transaction back. -/
def Capturing.abort (place : Nat) : Capturing :=
  match s.captures[place]? with
  | some capture => s.setStatement place capture .ended
  | none => s

/-- One day of `rebuild_adoption_history`, which waits for whoever holds a key of it; the
last date has no next day. -/
def Capturing.rebuildDay (createdAt : Uuid → Time) (day : Int) (rebuiltAt : Time) : Capturing :=
  let rows := rebuiltRows s.db createdAt day rebuiltAt
  if lastDate ≤ day || s.captures.any fun other => conflicts rows other.held then s
  else { s with daily := (s.daily.filter fun row => row.observedOn != day) ++ rows }

def Capturing.step (crate : UrlCrate) (createdAt : Uuid → Time) (delayMinutes : Nat) :
    CaptureAction → Capturing
  | .store call => { s with db := exec crate s.db call }
  | .tick now => s.tick delayMinutes now
  | .checkExists place => s.checkExists place
  | .select place => s.select place
  | .insert place => s.insert place
  | .commit place => s.commit place
  | .abort place => s.abort place
  | .rebuildDay day rebuiltAt => s.rebuildDay createdAt day rebuiltAt

end Steps

/-- The table after a run from the empty store. -/
def capturing (crate : UrlCrate) (createdAt : Uuid → Time) (delayMinutes : Nat)
    (catalogue : Catalogue) (actions : List CaptureAction) : Capturing :=
  run (fun s action => Capturing.step s crate createdAt delayMinutes action)
    (Capturing.initial catalogue) actions

def onDay (daily : List AdoptionRow) (day : Int) : List AdoptionRow :=
  daily.filter fun row => row.observedOn == day

end Model

section Origins

variable {seen later : Database → Prop} {catalogue : Catalogue} {createdAt : Uuid → Time}
  {delayMinutes : Nat} {day : Int} {rows others : List AdoptionRow}

/-- The rows of a day come from one transaction: a capture that was due on that day, or a
rebuild, as its one INSERT saw the store. -/
inductive Origin (seen : Database → Prop) (createdAt : Uuid → Time) (delayMinutes : Nat)
    (day : Int) : List AdoptionRow → Prop
  | none : Origin seen createdAt delayMinutes day []
  | captured {source : Database} {capturedAt : Time} (read : seen source)
      (due : dayOf capturedAt = day ∧ (delayMinutes : Int) ≤ minuteOfDay capturedAt) :
      Origin seen createdAt delayMinutes day (capturedRows source day capturedAt)
  | rebuilt {source : Database} {rebuiltAt : Time} (read : seen source) :
      Origin seen createdAt delayMinutes day (rebuiltRows source createdAt day rebuiltAt)

theorem Origin.mono (origin : Origin seen createdAt delayMinutes day rows)
    (grown : ∀ source, seen source → later source) :
    Origin later createdAt delayMinutes day rows := by
  cases origin with
  | none => exact .none
  | captured read due => exact .captured (grown _ read) due
  | rebuilt read => exact .rebuilt (grown _ read)

theorem mem_capturedRows {db : Database} {capturedAt : Time} {row : AdoptionRow}
    (member : row ∈ capturedRows db day capturedAt) :
    row.observedOn = day ∧ ∃ technology ∈ db.catalogue.technologies,
      technology.id = row.technologyId := by
  obtain ⟨technology, listed, rfl⟩ := List.mem_map.mp member
  exact ⟨rfl, technology, listed, rfl⟩

theorem mem_rebuiltRows {db : Database} {rebuiltAt : Time} {row : AdoptionRow}
    (member : row ∈ rebuiltRows db createdAt day rebuiltAt) :
    row.observedOn = day ∧ ∃ technology ∈ db.catalogue.technologies,
      technology.id = row.technologyId := by
  obtain ⟨technology, listed, rfl⟩ := List.mem_map.mp member
  exact ⟨rfl, technology, (List.mem_filter.mp listed).1, rfl⟩

/-- Every row of the day is of a technology of the catalogue. -/
theorem Origin.mem (origin : Origin seen createdAt delayMinutes day rows)
    (fixed : ∀ source, seen source → source.catalogue = catalogue) {row : AdoptionRow}
    (member : row ∈ rows) :
    row.observedOn = day ∧ ∃ technology ∈ catalogue.technologies,
      technology.id = row.technologyId := by
  cases origin with
  | none => cases member
  | captured read _ =>
      rw [← fixed _ read]
      exact mem_capturedRows member
  | rebuilt read =>
      rw [← fixed _ read]
      exact mem_rebuiltRows member

/-- A capture holds a key of every technology. -/
theorem conflicts_captured {source : Database} (capturedAt : Time) {row : AdoptionRow}
    (member : row ∈ others) (same : row.observedOn = day)
    (listed : ∃ technology ∈ source.catalogue.technologies, technology.id = row.technologyId) :
    conflicts (capturedRows source day capturedAt) others = true := by
  obtain ⟨technology, inCatalogue, sameId⟩ := listed
  rw [conflicts, List.any_eq_true]
  refine ⟨_, List.mem_map_of_mem inCatalogue, ?_⟩
  rw [List.any_eq_true]
  exact ⟨row, member, by simp [sameKey, same, sameId]⟩

theorem conflicts_comm (rows others : List AdoptionRow) :
    conflicts rows others = conflicts others rows := by
  have swap : ∀ rows others, conflicts rows others = true → conflicts others rows = true := by
    intro rows others conflict
    rw [conflicts, List.any_eq_true] at conflict ⊢
    obtain ⟨row, member, found⟩ := conflict
    rw [List.any_eq_true] at found
    obtain ⟨other, inOthers, same⟩ := found
    refine ⟨other, inOthers, ?_⟩
    rw [List.any_eq_true]
    refine ⟨row, member, ?_⟩
    simp only [sameKey, Bool.and_eq_true, beq_iff_eq] at same ⊢
    exact ⟨same.1.symm, same.2.symm⟩
  rw [Bool.eq_iff_iff]
  exact ⟨swap rows others, swap others rows⟩

end Origins

section Invariant

variable {seen later : Database → Prop} {catalogue : Catalogue} {createdAt : Uuid → Time}
  {delayMinutes : Nat} {crate : UrlCrate} {s : Capturing} {capture : Capture} {place : Nat}

/-- A capture is of the day it was due on, and its rows are one reading of the store. -/
structure CaptureSound (seen : Database → Prop) (delayMinutes : Nat) (capture : Capture) :
    Prop where
  due : dayOf capture.capturedAt = capture.observedOn ∧
    (delayMinutes : Int) ≤ minuteOfDay capture.capturedAt
  read : ∀ rows, capture.statement = .selected rows ∨ capture.statement = .inserted rows →
    ∃ source, seen source ∧ rows = capturedRows source capture.observedOn capture.capturedAt

structure Exclusive (seen : Database → Prop) (createdAt : Uuid → Time) (delayMinutes : Nat)
    (s : Capturing) : Prop where
  keys : Keys s.db
  current : seen s.db
  whole : ∀ day, Origin seen createdAt delayMinutes day (onDay s.daily day)
  sound : ∀ capture ∈ s.captures, CaptureSound seen delayMinutes capture
  free : ∀ capture ∈ s.captures, capture.held ≠ [] → onDay s.daily capture.observedOn = []
  apart : ∀ (i j : Nat) (a b : Capture), i ≠ j → s.captures[i]? = some a → s.captures[j]? = some b →
    a.held ≠ [] → b.held ≠ [] → a.observedOn ≠ b.observedOn

theorem CaptureSound.held (sound : CaptureSound seen delayMinutes capture)
    (holds : capture.held ≠ []) :
    ∃ source, seen source ∧
      capture.held = capturedRows source capture.observedOn capture.capturedAt := by
  unfold Capture.held at holds ⊢
  split
  · rename_i rows inserted
    exact sound.read rows (Or.inr inserted)
  · rename_i other
    split at holds
    · rename_i rows inserted
      exact absurd inserted (other rows)
    · exact absurd rfl holds

theorem CaptureSound.mono (sound : CaptureSound seen delayMinutes capture)
    (grown : ∀ source, seen source → later source) : CaptureSound later delayMinutes capture := by
  refine ⟨sound.due, ?_⟩
  intro rows read
  obtain ⟨source, inSeen, same⟩ := sound.read rows read
  exact ⟨source, grown source inSeen, same⟩

/-- A transaction goes on; if it holds keys now, nobody else has rows of its day. -/
theorem Exclusive.setStatement (exclusive : Exclusive seen createdAt delayMinutes s)
    {statement : CaptureStatement}
    (sound : CaptureSound seen delayMinutes { capture with statement := statement })
    (alone : ({ capture with statement := statement } : Capture).held ≠ [] →
      onDay s.daily capture.observedOn = [] ∧
        ∀ other ∈ s.captures, other.held ≠ [] → other.observedOn ≠ capture.observedOn) :
    Exclusive seen createdAt delayMinutes (s.setStatement place capture statement) := by
  refine ⟨exclusive.keys, exclusive.current, exclusive.whole, ?_, ?_, ?_⟩
  · intro other member
    rcases List.mem_or_eq_of_mem_set member with old | rfl
    · exact exclusive.sound other old
    · exact sound
  · intro other member holds
    rcases List.mem_or_eq_of_mem_set member with old | rfl
    · exact exclusive.free other old holds
    · exact (alone holds).1
  · intro i j a b different atI atJ holdsA holdsB
    simp only [Capturing.setStatement, List.getElem?_set] at atI atJ
    split at atI
    · rename_i atPlace
      split at atI
      · cases atI
        rw [if_neg (fun same => different (atPlace.symm.trans same))] at atJ
        exact ((alone holdsA).2 b (List.mem_of_getElem? atJ) holdsB).symm
      · cases atI
    · split at atJ
      · split at atJ
        · cases atJ
          exact (alone holdsB).2 a (List.mem_of_getElem? atI) holdsA
        · cases atJ
      · exact exclusive.apart i j a b different atI atJ holdsA holdsB

theorem Exclusive.ended (exclusive : Exclusive seen createdAt delayMinutes s)
    (found : s.captures[place]? = some capture) :
    Exclusive seen createdAt delayMinutes (s.setStatement place capture .ended) := by
  have before := exclusive.sound capture (List.mem_of_getElem? found)
  refine exclusive.setStatement ⟨before.due, ?_⟩ fun holds => absurd rfl holds
  rintro rows (same | same) <;> cases same

/-- A capture that may insert: the day has no rows, committed or held. -/
theorem insert_exclusive (fixed : ∀ source, seen source → source.catalogue = catalogue)
    (exclusive : Exclusive seen createdAt delayMinutes s) (place : Nat) :
    Exclusive seen createdAt delayMinutes (s.insert place) := by
  unfold Capturing.insert
  split
  · rename_i observedOn capturedAt rows found
    have before := exclusive.sound _ (List.mem_of_getElem? found)
    split
    · exact exclusive.ended found
    · rename_i committed
      split
      · exact exclusive
      · rename_i held
        obtain ⟨source, read, same⟩ := before.read rows (Or.inl rfl)
        dsimp only at same
        subst same
        refine exclusive.setStatement ⟨before.due, ?_⟩ fun _ => ⟨?_, ?_⟩
        · rintro rows (same | same) <;> cases same
          exact ⟨source, read, rfl⟩
        · rw [List.eq_nil_iff_forall_not_mem]
          intro row member
          have listed := (exclusive.whole observedOn).mem fixed member
          rw [← fixed source read] at listed
          have inDaily := (List.mem_filter.mp member).1
          exact committed (conflicts_captured _ inDaily listed.1 listed.2)
        · intro other member holds same
          obtain ⟨taken, seenToo, rowsOf⟩ := (exclusive.sound other member).held holds
          obtain ⟨row, inHeld⟩ := List.exists_mem_of_ne_nil _ holds
          have listed := inHeld
          rw [rowsOf] at listed
          obtain ⟨onSame, known⟩ := mem_capturedRows listed
          rw [fixed taken seenToo, ← fixed source read] at known
          apply held
          rw [List.any_eq_true]
          exact ⟨other, member, conflicts_captured _ inHeld (onSame.trans same) known⟩
  · exact exclusive

theorem onDay_append (daily rows : List AdoptionRow) (day : Int) :
    onDay (daily ++ rows) day = onDay daily day ++ onDay rows day := List.filter_append ..

theorem onDay_self {rows : List AdoptionRow} {day : Int}
    (own : ∀ row ∈ rows, row.observedOn = day) : onDay rows day = rows := by
  rw [onDay, List.filter_eq_self]
  exact fun row member => beq_iff_eq.mpr (own row member)

theorem onDay_other {rows : List AdoptionRow} {day other : Int} (different : other ≠ day)
    (own : ∀ row ∈ rows, row.observedOn = day) : onDay rows other = [] := by
  rw [onDay, List.filter_eq_nil_iff]
  intro row member same
  exact different ((beq_iff_eq.mp same).symm.trans (own row member))

theorem commit_exclusive (exclusive : Exclusive seen createdAt delayMinutes s) (place : Nat) :
    Exclusive seen createdAt delayMinutes (s.commit place) := by
  unfold Capturing.commit
  split
  · rename_i observedOn capturedAt rows found
    have before := exclusive.sound _ (List.mem_of_getElem? found)
    obtain ⟨source, read, same⟩ := before.read rows (Or.inr rfl)
    dsimp only at same
    subst same
    have own : ∀ row ∈ capturedRows source observedOn capturedAt, row.observedOn = observedOn :=
      fun row member => (mem_capturedRows member).1
    have ended := exclusive.ended found
    have free : capturedRows source observedOn capturedAt ≠ [] →
        onDay s.daily observedOn = [] :=
      exclusive.free _ (List.mem_of_getElem? found)
    refine ⟨ended.keys, ended.current, ?_, ended.sound, ?_, ended.apart⟩
    · intro day
      show Origin seen createdAt delayMinutes day
        (onDay (s.daily ++ capturedRows source observedOn capturedAt) day)
      rw [onDay_append]
      by_cases same : day = observedOn
      · subst same
        rw [onDay_self own]
        by_cases empty : capturedRows source day capturedAt = []
        · rw [empty, List.append_nil]
          exact exclusive.whole day
        · rw [free empty, List.nil_append]
          exact .captured read before.due
      · rw [onDay_other same own, List.append_nil]
        exact exclusive.whole day
    · intro other member holds
      show onDay (s.daily ++ capturedRows source observedOn capturedAt) other.observedOn = []
      have vacant := ended.free other member holds
      obtain ⟨position, atPosition⟩ := List.getElem?_of_mem member
      rw [onDay_append]
      have vacantBefore : onDay s.daily other.observedOn = [] := vacant
      rw [vacantBefore, List.nil_append]
      by_cases empty : capturedRows source observedOn capturedAt = []
      · rw [empty]
        rfl
      · apply onDay_other _ own
        simp only [Capturing.setStatement, List.getElem?_set] at atPosition
        split at atPosition
        · split at atPosition
          · cases atPosition
            exact absurd rfl holds
          · cases atPosition
        · rename_i elsewhere
          exact exclusive.apart position place other _ (Ne.symm elsewhere) atPosition found holds
            empty
  · exact exclusive

theorem rebuildDay_exclusive (fixed : ∀ source, seen source → source.catalogue = catalogue)
    (exclusive : Exclusive seen createdAt delayMinutes s) (day : Int) (rebuiltAt : Time) :
    Exclusive seen createdAt delayMinutes (s.rebuildDay createdAt day rebuiltAt) := by
  unfold Capturing.rebuildDay
  dsimp only
  split
  · exact exclusive
  · rename_i unheld
    have own : ∀ row ∈ rebuiltRows s.db createdAt day rebuiltAt, row.observedOn = day :=
      fun row member => (mem_rebuiltRows member).1
    have replaced : ∀ other, onDay ((s.daily.filter fun row => row.observedOn != day) ++
        rebuiltRows s.db createdAt day rebuiltAt) other =
          if other = day then rebuiltRows s.db createdAt day rebuiltAt
          else onDay s.daily other := by
      intro other
      rw [onDay_append]
      by_cases same : other = day
      · subst same
        have dropped : onDay (s.daily.filter fun row => row.observedOn != other) other = [] := by
          rw [onDay, List.filter_filter, List.filter_eq_nil_iff]
          simp
        rw [if_pos rfl, dropped, onDay_self own, List.nil_append]
      · have kept : onDay (s.daily.filter fun row => row.observedOn != day) other =
            onDay s.daily other := by
          rw [onDay, onDay, List.filter_filter]
          apply List.filter_congr
          intro row _
          by_cases chosen : row.observedOn = other
          · simp [chosen, same]
          · simp [chosen]
        rw [if_neg same, kept, onDay_other same own, List.append_nil]
    refine ⟨exclusive.keys, exclusive.current, ?_, exclusive.sound, ?_, exclusive.apart⟩
    · intro other
      show Origin seen createdAt delayMinutes other (onDay _ other)
      rw [replaced]
      split
      · rename_i same
        subst same
        exact .rebuilt exclusive.current
      · exact exclusive.whole other
    · intro capture member holds
      show onDay _ capture.observedOn = []
      rw [replaced]
      split
      · rename_i same
        rw [List.eq_nil_iff_forall_not_mem]
        intro row inRows
        obtain ⟨source, read, rowsOf⟩ := (exclusive.sound capture member).held holds
        obtain ⟨onDay, known⟩ := mem_rebuiltRows inRows
        rw [fixed _ exclusive.current, ← fixed source read] at known
        have conflict := conflicts_captured capture.capturedAt inRows
          (onDay.trans same.symm) known
        rw [← rowsOf, conflicts_comm] at conflict
        apply unheld
        rw [Bool.or_eq_true, List.any_eq_true]
        exact Or.inr ⟨capture, member, conflict⟩
      · exact exclusive.free capture member holds

end Invariant

section Runs

variable {seen later : Database → Prop} {catalogue : Catalogue} {createdAt : Uuid → Time}
  {delayMinutes : Nat} {crate : UrlCrate} {s : Capturing}

theorem Exclusive.mono (exclusive : Exclusive seen createdAt delayMinutes s)
    (grown : ∀ source, seen source → later source) : Exclusive later createdAt delayMinutes s where
  keys := exclusive.keys
  current := grown _ exclusive.current
  whole := fun day => (exclusive.whole day).mono grown
  sound := fun capture member => (exclusive.sound capture member).mono grown
  free := exclusive.free
  apart := exclusive.apart

theorem tick_exclusive (exclusive : Exclusive seen createdAt delayMinutes s) (now : Time) :
    Exclusive seen createdAt delayMinutes (s.tick delayMinutes now) := by
  unfold Capturing.tick
  split
  · exact exclusive
  · rename_i due
    refine ⟨exclusive.keys, exclusive.current, exclusive.whole, ?_, ?_, ?_⟩
    · intro capture member
      rcases List.mem_append.mp member with old | new
      · exact exclusive.sound capture old
      · rw [List.mem_singleton.mp new]
        refine ⟨⟨rfl, Int.not_lt.mp due⟩, ?_⟩
        rintro rows (same | same) <;> cases same
    · intro capture member holds
      rcases List.mem_append.mp member with old | new
      · exact exclusive.free capture old holds
      · rw [List.mem_singleton.mp new] at holds
        exact absurd rfl holds
    · intro i j a b different atI atJ holdsA holdsB
      have old : ∀ (place : Nat) (capture : Capture),
          (s.captures ++ [⟨dayOf now, now, .begun⟩])[place]? = some capture → capture.held ≠ [] →
          s.captures[place]? = some capture := by
        intro place capture found holds
        rw [List.getElem?_append] at found
        split at found
        · exact found
        · have new := List.mem_of_getElem? found
          rw [List.mem_singleton.mp new] at holds
          exact absurd rfl holds
      exact exclusive.apart i j a b different (old i a atI holdsA) (old j b atJ holdsB) holdsA
        holdsB

theorem step_exclusive (fixed : ∀ source, seen source → source.catalogue = catalogue)
    (exclusive : Exclusive seen createdAt delayMinutes s) (action : CaptureAction)
    (reached : seen (s.step crate createdAt delayMinutes action).db) :
    Exclusive seen createdAt delayMinutes (s.step crate createdAt delayMinutes action) := by
  cases action with
  | store call =>
      exact ⟨exec_keys crate s.db call exclusive.keys, reached, exclusive.whole, exclusive.sound,
        exclusive.free, exclusive.apart⟩
  | tick now => exact tick_exclusive exclusive now
  | checkExists place =>
      simp only [Capturing.step, Capturing.checkExists]
      split
      · rename_i observedOn capturedAt found
        have before := exclusive.sound _ (List.mem_of_getElem? found)
        split
        · exact exclusive.ended found
        · refine exclusive.setStatement ⟨before.due, ?_⟩ fun holds => absurd rfl holds
          rintro rows (same | same) <;> cases same
      · exact exclusive
  | select place =>
      simp only [Capturing.step, Capturing.select]
      split
      · rename_i observedOn capturedAt found
        have before := exclusive.sound _ (List.mem_of_getElem? found)
        refine exclusive.setStatement ⟨before.due, ?_⟩ fun holds => absurd rfl holds
        rintro rows (same | same) <;> cases same
        exact ⟨s.db, exclusive.current, rfl⟩
      · exact exclusive
  | insert place => exact insert_exclusive fixed exclusive place
  | commit place => exact commit_exclusive exclusive place
  | abort place =>
      simp only [Capturing.step, Capturing.abort]
      split
      · rename_i capture found
        exact exclusive.ended found
      · exact exclusive
  | rebuildDay day rebuiltAt => exact rebuildDay_exclusive fixed exclusive day rebuiltAt

theorem exec_catalogue {db : Database} (keys : Keys db) (call : Call)
    (fixed : db.catalogue = catalogue) : (exec crate db call).catalogue = catalogue := by
  refine And.right (exec_invariant (P := fun db => db.catalogue = catalogue) ?_ ?_ ?_ db call
    ⟨keys, fixed⟩)
  · intro names before after move _ fixed
    exact (move_sameRecords move).catalogue.trans fixed
  · intro records bare before after resolution _ fixed
    rcases resolution_records resolution with same | ⟨_, _, _, _, _, success⟩
    · exact same.catalogue.trans fixed
    · obtain ⟨_, _, _, _, _, _, rfl⟩ := persistSuccess_eq_ok success
      exact fixed
  · intro before row fixed
    exact fixed

theorem step_db (crate : UrlCrate) (createdAt : Uuid → Time) (delayMinutes : Nat)
    (s : Capturing) (action : CaptureAction) :
    (s.step crate createdAt delayMinutes action).db = s.db ∨
      ∃ call, (s.step crate createdAt delayMinutes action).db = exec crate s.db call := by
  cases action with
  | store call => exact Or.inr ⟨call, rfl⟩
  | tick now =>
      left
      simp only [Capturing.step, Capturing.tick]
      split <;> rfl
  | checkExists place =>
      left
      simp only [Capturing.step, Capturing.checkExists]
      split <;> rfl
  | select place =>
      left
      simp only [Capturing.step, Capturing.select]
      split <;> rfl
  | insert place =>
      left
      simp only [Capturing.step, Capturing.insert]
      split
      · split
        · rfl
        · split <;> rfl
      · rfl
  | commit place =>
      left
      simp only [Capturing.step, Capturing.commit]
      split <;> rfl
  | abort place =>
      left
      simp only [Capturing.step, Capturing.abort]
      split <;> rfl
  | rebuildDay day rebuiltAt =>
      left
      simp only [Capturing.step, Capturing.rebuildDay]
      split <;> rfl

theorem capturing_catalogue (crate : UrlCrate) (createdAt : Uuid → Time) (delayMinutes : Nat)
    (catalogue : Catalogue) (actions : List CaptureAction) :
    (capturing crate createdAt delayMinutes catalogue actions).db.catalogue = catalogue := by
  have preserved : ∀ (s : Capturing) (action : CaptureAction),
      Keys s.db ∧ s.db.catalogue = catalogue →
      Keys (s.step crate createdAt delayMinutes action).db ∧
        (s.step crate createdAt delayMinutes action).db.catalogue = catalogue := by
    intro s action holds
    rcases step_db crate createdAt delayMinutes s action with same | ⟨call, executed⟩
    · rw [same]
      exact holds
    · rw [executed]
      exact ⟨exec_keys crate s.db call holds.1, exec_catalogue holds.1 call holds.2⟩
  exact (run_invariant (P := fun s => Keys s.db ∧ s.db.catalogue = catalogue) preserved
    (Capturing.initial catalogue) actions ⟨initial_keys catalogue, rfl⟩).2

/-- The store as it was at some moment of the run. -/
def Seen (crate : UrlCrate) (createdAt : Uuid → Time) (delayMinutes : Nat) (catalogue : Catalogue)
    (actions : List CaptureAction) (source : Database) : Prop :=
  ∃ earlier later, actions = earlier ++ later ∧
    source = (capturing crate createdAt delayMinutes catalogue earlier).db

theorem capturing_exclusive (crate : UrlCrate) (createdAt : Uuid → Time) (delayMinutes : Nat)
    (catalogue : Catalogue) (actions : List CaptureAction) :
    Exclusive (Seen crate createdAt delayMinutes catalogue actions) createdAt delayMinutes
      (capturing crate createdAt delayMinutes catalogue actions) := by
  induction actions using List.reverseRecOn with
  | nil =>
      refine ⟨initial_keys catalogue, ⟨[], [], rfl, rfl⟩, fun _ => .none,
        fun _ member => (nomatch member), fun _ member => (nomatch member), ?_⟩
      intro i j a b _ atI
      cases atI
  | append_singleton actions action ih =>
      have last : capturing crate createdAt delayMinutes catalogue (actions ++ [action]) =
          (capturing crate createdAt delayMinutes catalogue actions).step crate createdAt
            delayMinutes action := run_append _ _ actions [action]
      have grown : Exclusive (Seen crate createdAt delayMinutes catalogue (actions ++ [action]))
          createdAt delayMinutes (capturing crate createdAt delayMinutes catalogue actions) := by
        apply ih.mono
        rintro source ⟨earlier, later, split, same⟩
        exact ⟨earlier, later ++ [action], by rw [split, List.append_assoc], same⟩
      have reached : Seen crate createdAt delayMinutes catalogue (actions ++ [action])
          ((capturing crate createdAt delayMinutes catalogue actions).step crate createdAt
            delayMinutes action).db :=
        ⟨actions ++ [action], [], (List.append_nil _).symm, by rw [last]⟩
      rw [last]
      have fixed : ∀ source, Seen crate createdAt delayMinutes catalogue (actions ++ [action])
          source → source.catalogue = catalogue := by
        rintro source ⟨earlier, later, _, rfl⟩
        exact capturing_catalogue crate createdAt delayMinutes catalogue earlier
      exact step_exclusive fixed grown action reached

/-- Over any interleaving of the captures of any number of schedulers with crawls and
rebuilds: the rows of a day are those of one transaction, whole, which read the store
at one moment; a capture is of the day it was taken on and not before its delay. -/
theorem captured_whole (crate : UrlCrate) (createdAt : Uuid → Time) (delayMinutes : Nat)
    (catalogue : Catalogue) (actions : List CaptureAction) (day : Int) :
    Origin (Seen crate createdAt delayMinutes catalogue actions) createdAt delayMinutes day
      (onDay (capturing crate createdAt delayMinutes catalogue actions).daily day) :=
  (capturing_exclusive crate createdAt delayMinutes catalogue actions).whole day

end Runs

end TechAtlas.Technologies
