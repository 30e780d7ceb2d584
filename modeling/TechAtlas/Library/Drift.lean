import Mathlib.Tactic

set_option autoImplicit false

/- A queue of instants that is pruned from its front, behind a lock: every instant is
read from the clock before the wait for the lock, so instants arrive out of order, but
none by more than a lag. -/
namespace Library

/-- What is left of the queue for a reading. -/
def pruned (window now : Nat) (queue : List Nat) : List Nat :=
  queue.dropWhile fun instant => decide (window ≤ now - instant)

def expired (window now : Nat) (queue : List Nat) : List Nat :=
  queue.takeWhile fun instant => decide (window ≤ now - instant)

theorem expired_append_pruned (window now : Nat) (queue : List Nat) :
    expired window now queue ++ pruned window now queue = queue := List.takeWhile_append_dropWhile

/-- The admitted instants, the pruned ones and the queue, when the clock shows `clock`:
no span shorter than the window by the lag holds more than the limit. -/
structure Drifting (limit window lag clock : Nat) (gone queue : List Nat) : Prop where
  past : ∀ instant ∈ queue, instant ≤ clock
  ordered : queue.Pairwise fun first second => first ≤ second + lag
  left : ∀ instant ∈ gone, instant + window ≤ clock
  narrow : ∀ start, (gone ++ queue).countP
    (fun instant => decide (start ≤ instant) && decide (instant + lag < start + window)) ≤ limit

variable {limit window lag clock : Nat} {gone queue : List Nat}

theorem drifting_nil (limit window lag clock : Nat) : Drifting limit window lag clock [] [] where
  past := fun _ member => nomatch member
  ordered := List.Pairwise.nil
  left := fun _ member => nomatch member
  narrow := fun _ => Nat.zero_le _

theorem Drifting.later (drifting : Drifting limit window lag clock gone queue) {next : Nat}
    (after : clock ≤ next) : Drifting limit window lag next gone queue where
  past := fun instant member => (drifting.past instant member).trans after
  ordered := drifting.ordered
  left := fun instant member => (drifting.left instant member).trans after
  narrow := drifting.narrow

/-- The front that a reading prunes has left the window. -/
theorem expired_left {now : Nat} (positive : 0 < window) {instant : Nat}
    (member : instant ∈ expired window now queue) : instant + window ≤ now := by
  have all : (expired window now queue).all (fun instant => decide (window ≤ now - instant)) =
      true := List.all_takeWhile
  have old := List.all_eq_true.mp all instant member
  rw [decide_eq_true_eq] at old
  omega

/-- A reading that finds the queue full moves the front out. -/
theorem Drifting.prune (drifting : Drifting limit window lag clock gone queue) {now : Nat}
    (positive : 0 < window) (read : now ≤ clock) :
    Drifting limit window lag clock (gone ++ expired window now queue)
      (pruned window now queue) := by
  have parts := expired_append_pruned window now queue
  have suffix : (pruned window now queue).Sublist queue := List.dropWhile_sublist _
  refine ⟨?_, ?_, ?_, ?_⟩
  · exact fun instant member => drifting.past instant (suffix.subset member)
  · exact drifting.ordered.sublist suffix
  · intro instant member
    rcases List.mem_append.mp member with before | front
    · exact drifting.left instant before
    · exact (expired_left positive front).trans read
  · intro start
    rw [List.append_assoc, parts]
    exact drifting.narrow start

/-- An instant that is admitted: whatever lies with it in a short span has not been
pruned, not even by a reading that was later than this one. -/
theorem Drifting.admit (drifting : Drifting limit window lag clock gone queue) {now : Nat}
    (positive : 0 < window) (read : now ≤ clock) (prompt : clock ≤ now + lag)
    (room : (pruned window now queue).length < limit) :
    Drifting limit window lag clock (gone ++ expired window now queue)
      (pruned window now queue ++ [now]) := by
  have kept := drifting.prune positive read
  refine ⟨?_, ?_, kept.left, ?_⟩
  · intro instant member
    rcases List.mem_append.mp member with old | new
    · exact kept.past instant old
    · rw [List.mem_singleton.mp new]
      exact read
  · rw [List.pairwise_append]
    refine ⟨kept.ordered, List.pairwise_singleton _ _, ?_⟩
    intro instant old other new
    rw [List.mem_singleton.mp new]
    exact (kept.past instant old).trans prompt
  · intro start
    rw [← List.append_assoc, List.countP_append]
    by_cases inside : (decide (start ≤ now) && decide (now + lag < start + window)) = true
    · have none : (gone ++ expired window now queue).countP (fun instant =>
          decide (start ≤ instant) && decide (instant + lag < start + window)) = 0 := by
        rw [List.countP_eq_zero]
        intro instant member within
        have out := kept.left instant member
        rw [Bool.and_eq_true, decide_eq_true_eq, decide_eq_true_eq] at inside within
        omega
      have few : (pruned window now queue).countP (fun instant =>
          decide (start ≤ instant) && decide (instant + lag < start + window)) ≤
          (pruned window now queue).length := List.countP_le_length
      rw [List.countP_append, none, List.countP_singleton, if_pos inside]
      omega
    · rw [List.countP_singleton, if_neg inside]
      exact kept.narrow start

/-- A full queue lies within the window and the lag behind the reading. -/
theorem Drifting.full (drifting : Drifting limit window lag clock gone queue) {now : Nat}
    (positive : 0 < window) (taken : limit ≤ (pruned window now queue).length) :
    limit ≤ (gone ++ queue).countP fun instant => decide (now < instant + window + lag) := by
  have recent : ∀ instant ∈ pruned window now queue,
      decide (now < instant + window + lag) = true := by
    have ordered := drifting.ordered.sublist
      (show (pruned window now queue).Sublist queue from List.dropWhile_sublist _)
    cases shown : pruned window now queue with
    | nil => exact fun _ member => nomatch member
    | cons front rest =>
        rw [shown, List.pairwise_cons] at ordered
        have head : decide (window ≤ now - front) = false := by
          have first := List.head?_dropWhile_not (fun instant => decide (window ≤ now - instant))
            queue
          rw [← pruned, shown] at first
          exact first
        rw [decide_eq_false_iff_not] at head
        intro instant member
        rw [decide_eq_true_eq]
        rcases List.mem_cons.mp member with rfl | behind
        · omega
        · have near := ordered.1 instant behind
          omega
  have whole := List.countP_eq_length.mpr recent
  have parts := expired_append_pruned window now queue
  calc limit
      ≤ (pruned window now queue).length := taken
    _ = (pruned window now queue).countP fun instant =>
          decide (now < instant + window + lag) := whole.symm
    _ ≤ queue.countP fun instant => decide (now < instant + window + lag) :=
          List.Sublist.countP_le (List.dropWhile_sublist _)
    _ ≤ (gone ++ queue).countP fun instant => decide (now < instant + window + lag) :=
          List.Sublist.countP_le (List.sublist_append_right _ _)

end Library
