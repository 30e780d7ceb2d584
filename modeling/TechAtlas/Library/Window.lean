import Mathlib.Tactic

set_option autoImplicit false

/- A log of events with keys, and the rule that admits an event while fewer than
the limit of its key lie in the window behind it. -/
namespace Library

universe u

structure Event (κ : Type u) where
  key : κ
  time : Nat
  deriving DecidableEq, Repr

section Sorted

/-- What a sorted list drops from its front is all there is to drop, where the
earlier element is dropped with the later one. -/
theorem dropWhile_eq_filter {α : Type u} {r : α → α → Prop} {p : α → Bool} {items : List α}
    (sorted : items.Pairwise r) (closed : ∀ a b, r a b → p b = true → p a = true) :
    items.dropWhile p = items.filter fun item => !p item := by
  induction items with
  | nil => rfl
  | cons first rest ih =>
      rw [List.pairwise_cons] at sorted
      by_cases dropped : p first = true
      · rw [List.dropWhile_cons_of_pos dropped, ih sorted.2, List.filter_cons_of_neg]
        simp [dropped]
      · have kept : ∀ item ∈ first :: rest, (!p item) = true := by
          intro item member
          rcases List.mem_cons.mp member with rfl | later
          · simpa using dropped
          · have notDropped : ¬p item = true := fun still =>
              dropped (closed first item (sorted.1 item later) still)
            simpa using notDropped
        rw [List.dropWhile_cons_of_neg dropped, List.filter_eq_self.mpr kept]

end Sorted

section Window

variable {κ : Type u} [DecidableEq κ] (limit : κ → Nat) (window : Nat)

/-- The times of the logged events with the key of the event that lie less than a
window before it. -/
def recent (log : List (Event κ)) (event : Event κ) : List Nat :=
  (log.filter fun past =>
    decide (past.key = event.key) && decide (event.time < past.time + window)).map Event.time

def admits (log : List (Event κ)) (event : Event κ) : Bool :=
  decide ((recent window log event).length < limit event.key)

/-- An event that is not admitted leaves no trace. -/
def logged (log : List (Event κ)) (event : Event κ) : List (Event κ) :=
  if admits limit window log event then log ++ [event] else log

def logAfter (log events : List (Event κ)) : List (Event κ) :=
  events.foldl (logged limit window) log

def ofKey (key : κ) (events : List (Event κ)) : List (Event κ) :=
  events.filter fun event => decide (event.key = key)

theorem logAfter_cons (log : List (Event κ)) (event : Event κ) (rest : List (Event κ)) :
    logAfter limit window log (event :: rest) =
      logAfter limit window (logged limit window log event) rest := rfl

theorem logAfter_append (log first second : List (Event κ)) :
    logAfter limit window log (first ++ second) =
      logAfter limit window (logAfter limit window log first) second := List.foldl_append

/-- Events of other keys do not matter. -/
theorem recent_ofKey (log : List (Event κ)) (event : Event κ) :
    recent window (ofKey event.key log) event = recent window log event := by
  unfold recent ofKey
  rw [List.filter_filter]
  congr 2
  funext past
  by_cases same : past.key = event.key
  · simp [same]
  · simp [same]

theorem recent_append (log : List (Event κ)) (event other : Event κ) :
    recent window (log ++ [event]) other = recent window log other ++
      if event.key = other.key ∧ other.time < event.time + window then [event.time] else [] := by
  unfold recent
  rw [List.filter_append, List.map_append]
  congr 1
  by_cases counts : event.key = other.key ∧ other.time < event.time + window
  · rw [if_pos counts]
    simp [counts]
  · rw [if_neg counts]
    simpa using counts

theorem admits_ofKey (log : List (Event κ)) (event : Event κ) :
    admits limit window (ofKey event.key log) event = admits limit window log event := by
  unfold admits
  rw [recent_ofKey]

theorem ofKey_logged (key : κ) (log : List (Event κ)) (event : Event κ) :
    ofKey key (logged limit window log event) =
      if event.key = key then logged limit window (ofKey key log) event else ofKey key log := by
  by_cases own : event.key = key
  · rw [if_pos own]
    unfold logged
    rw [← own, admits_ofKey]
    by_cases admitted : admits limit window log event = true
    · rw [if_pos admitted, if_pos admitted]
      simp [ofKey]
    · rw [if_neg admitted, if_neg admitted]
  · rw [if_neg own]
    unfold logged
    by_cases admitted : admits limit window log event = true
    · rw [if_pos admitted]
      simp [ofKey, own]
    · rw [if_neg admitted]

/-- The logged events of a key whose times satisfy the test. -/
def countIn (log : List (Event κ)) (key : κ) (test : Nat → Bool) : Nat :=
  (log.filter fun event => decide (event.key = key) && test event.time).length

variable {limit window}

/-- Of times closer together than a window, at most the limit is logged: the last
one was admitted with all others in its window. -/
theorem countIn_logged {key : κ} {test : Nat → Bool}
    (narrow : ∀ a b, test a = true → test b = true → b < a + window) {log : List (Event κ)}
    (bounded : countIn log key test ≤ limit key) (event : Event κ) :
    countIn (logged limit window log event) key test ≤ limit key := by
  unfold logged
  split
  · rename_i admitted
    by_cases counted : event.key = key ∧ test event.time = true
    · obtain ⟨own, inside⟩ := counted
      have admissible : (recent window log event).length < limit event.key := by
        simpa [admits] using admitted
      have fewer : countIn log key test ≤ (recent window log event).length := by
        unfold countIn recent
        rw [List.length_map]
        apply List.Sublist.length_le
        apply List.monotone_filter_right
        intro past both
        rw [Bool.and_eq_true, decide_eq_true_eq] at both
        rw [Bool.and_eq_true, decide_eq_true_eq, decide_eq_true_eq]
        exact ⟨both.1.trans own.symm, narrow past.time event.time both.2 inside⟩
      have grown : countIn (log ++ [event]) key test = countIn log key test + 1 := by
        simp [countIn, own, inside]
      rw [grown]
      rw [own] at admissible
      omega
    · have same : countIn (log ++ [event]) key test = countIn log key test := by
        simp [countIn, counted]
      rw [same]
      exact bounded
  · exact bounded

theorem countIn_logAfter {key : κ} {test : Nat → Bool}
    (narrow : ∀ a b, test a = true → test b = true → b < a + window) {log : List (Event κ)}
    (bounded : countIn log key test ≤ limit key) (events : List (Event κ)) :
    countIn (logAfter limit window log events) key test ≤ limit key := by
  induction events generalizing log with
  | nil => exact bounded
  | cons event rest ih => exact ih (countIn_logged narrow bounded event)

/-- A window never holds more than the limit, so an event is refused while the
oldest of a full window is in it, and admitted as soon as it has left. -/
theorem length_recent_le {log : List (Event κ)} {event : Event κ}
    (bounded : ∀ (key : κ) (test : Nat → Bool),
      (∀ a b, test a = true → test b = true → b < a + window) →
        countIn log key test ≤ limit key)
    (past : ∀ other ∈ log, other.time ≤ event.time) :
    (recent window log event).length ≤ limit event.key := by
  have within := bounded event.key
    (fun time => decide (event.time < time + window) && decide (time ≤ event.time)) (by
      intro a b first second
      simp only [Bool.and_eq_true, decide_eq_true_eq] at first second
      omega)
  unfold recent
  rw [List.length_map]
  refine le_trans (le_of_eq ?_) within
  unfold countIn
  congr 1
  apply List.filter_congr
  intro other member
  have before := past other member
  simp [before]

end Window

end Library
