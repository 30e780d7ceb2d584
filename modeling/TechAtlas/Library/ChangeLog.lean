import Mathlib.Tactic
import Mathlib.Algebra.BigOperators.Group.Finset.Basic
import Mathlib.Data.Finset.Basic

set_option autoImplicit false

/- Change logs: each entry takes an item out of a set, puts one in, or does
both, and the set is what replaying the log leaves. -/
namespace Library

universe u

structure Delta (α : Type u) where
  removed : Option α
  added : Option α
  deriving DecidableEq, Repr

variable {α : Type u} [DecidableEq α]

def Delta.apply (items : Finset α) (delta : Delta α) : Finset α :=
  let kept := match delta.removed with
    | some item => items.erase item
    | none => items
  match delta.added with
  | some item => insert item kept
  | none => kept

def replay (items : Finset α) (log : List (Delta α)) : Finset α := log.foldl Delta.apply items

theorem replay_append (items : Finset α) (first second : List (Delta α)) :
    replay items (first ++ second) = replay (replay items first) second :=
  List.foldl_append

theorem mem_apply {items : Finset α} {delta : Delta α} {item : α} :
    item ∈ delta.apply items ↔
      delta.added = some item ∨ (item ∈ items ∧ delta.removed ≠ some item) := by
  rcases delta with ⟨removed, added⟩
  cases removed <;> cases added <;> simp [Delta.apply, eq_comm, and_comm]

/-- No item is put in by one entry and taken out by another. -/
def Consistent (log : List (Delta α)) : Prop :=
  ∀ item, (∃ delta ∈ log, delta.added = some item) → ∀ delta ∈ log, delta.removed ≠ some item

omit [DecidableEq α] in
theorem Consistent.tail {delta : Delta α} {log : List (Delta α)}
    (consistent : Consistent (delta :: log)) : Consistent log := by
  rintro item ⟨adder, member, added⟩ remover inLog
  exact consistent item ⟨adder, List.mem_cons_of_mem delta member, added⟩ remover
    (List.mem_cons_of_mem delta inLog)

/-- What replaying a consistent log leaves; the order of its entries does not
matter. -/
theorem mem_replay {log : List (Delta α)} (consistent : Consistent log) {items : Finset α}
    {item : α} :
    item ∈ replay items log ↔
      (∃ delta ∈ log, delta.added = some item) ∨
        (item ∈ items ∧ ∀ delta ∈ log, delta.removed ≠ some item) := by
  induction log generalizing items with
  | nil => simp [replay]
  | cons delta rest ih =>
      have step : replay items (delta :: rest) = replay (delta.apply items) rest := rfl
      rw [step, ih consistent.tail, mem_apply]
      have whole : delta.added = some item → ∀ other ∈ rest, other.removed ≠ some item :=
        fun added other inRest => consistent item ⟨delta, List.mem_cons_self, added⟩ other
          (List.mem_cons_of_mem delta inRest)
      simp only [List.exists_mem_cons_iff, List.forall_mem_cons]
      constructor
      · rintro (later | ⟨here | ⟨old, kept⟩, untouched⟩)
        · exact Or.inl (Or.inr later)
        · exact Or.inl (Or.inl here)
        · exact Or.inr ⟨old, kept, untouched⟩
      · rintro ((here | later) | ⟨old, kept, untouched⟩)
        · exact Or.inr ⟨Or.inl here, whole here⟩
        · exact Or.inl later
        · exact Or.inr ⟨Or.inr ⟨old, kept⟩, untouched⟩

/-- Every entry takes out what is there and puts in what is not. -/
def Applicable : Finset α → List (Delta α) → Prop
  | _, [] => True
  | items, delta :: rest =>
      (∀ item, delta.removed = some item → item ∈ items) ∧
        (∀ item, delta.added = some item → item ∉ items) ∧ Applicable (delta.apply items) rest

theorem applicable_append {items : Finset α} {first second : List (Delta α)} :
    Applicable items (first ++ second) ↔
      Applicable items first ∧ Applicable (replay items first) second := by
  induction first generalizing items with
  | nil => simp [Applicable, replay]
  | cons delta rest ih =>
      have step : replay items (delta :: rest) = replay (delta.apply items) rest := rfl
      rw [List.cons_append, Applicable, Applicable, ih, step]
      simp only [and_assoc]

/-- Entries that touch different items apply in any order. -/
theorem applicable_of_distinct {items : Finset α} {log : List (Delta α)}
    (takesOnce : (log.filterMap Delta.removed).Nodup) (putsOnce : (log.filterMap Delta.added).Nodup)
    (present : ∀ item ∈ log.filterMap Delta.removed, item ∈ items)
    (absent : ∀ item ∈ log.filterMap Delta.added, item ∉ items) : Applicable items log := by
  induction log generalizing items with
  | nil => trivial
  | cons delta rest ih =>
      rw [List.filterMap_cons] at takesOnce putsOnce present absent
      refine ⟨?_, ?_, ih ?_ ?_ ?_ ?_⟩
      · intro item removed
        rw [removed] at present
        exact present item List.mem_cons_self
      · intro item added
        rw [added] at absent
        exact absent item List.mem_cons_self
      · split at takesOnce
        · exact takesOnce
        · exact takesOnce.of_cons
      · split at putsOnce
        · exact putsOnce
        · exact putsOnce.of_cons
      · intro item later
        rw [mem_apply]
        refine Or.inr ⟨?_, ?_⟩
        · split at present
          · exact present item later
          · exact present item (List.mem_cons_of_mem _ later)
        · intro removed
          rw [removed] at takesOnce
          exact (List.nodup_cons.mp takesOnce).1 later
      · intro item later
        rw [mem_apply, not_or, not_and_or]
        refine ⟨?_, Or.inl ?_⟩
        · intro added
          rw [added] at putsOnce
          exact (List.nodup_cons.mp putsOnce).1 later
        · split at absent
          · exact absent item later
          · exact absent item (List.mem_cons_of_mem _ later)

/-- How often a log puts the item in, less how often it takes it out. -/
def net (item : α) (log : List (Delta α)) : Int :=
  (log.countP (fun delta => delta.added == some item) : Int) -
    (log.countP (fun delta => delta.removed == some item) : Int)

def indicator (p : Prop) [Decidable p] : Int := if p then 1 else 0

theorem net_cons (item : α) (delta : Delta α) (log : List (Delta α)) :
    net item (delta :: log) = net item [delta] + net item log := by
  simp only [net, List.countP_cons, List.countP_nil]
  push_cast
  ring

/-- Over an applicable log the entries of an item alternate, so their sum is
the difference it makes. -/
theorem net_eq {item : α} {items : Finset α} {log : List (Delta α)}
    (applicable : Applicable items log) :
    net item log = indicator (item ∈ replay items log) - indicator (item ∈ items) := by
  induction log generalizing items with
  | nil => exact (sub_self (indicator (item ∈ items))).symm
  | cons delta rest ih =>
      obtain ⟨present, absent, later⟩ := applicable
      have step : replay items (delta :: rest) = replay (delta.apply items) rest := rfl
      have single : net item [delta] =
          indicator (item ∈ delta.apply items) - indicator (item ∈ items) := by
        have after : item ∈ delta.apply items ↔
            delta.added = some item ∨ (item ∈ items ∧ delta.removed ≠ some item) := mem_apply
        by_cases added : delta.added = some item
        · have outside := absent item added
          have kept : delta.removed ≠ some item := fun removed => outside (present item removed)
          simp [net, indicator, after, added, outside, kept]
        · by_cases removed : delta.removed = some item
          · have inside := present item removed
            simp [net, indicator, after, added, inside, removed]
          · simp [net, indicator, after, added, removed]
      rw [net_cons, ih later, single, step]
      ring

/-- A sum over a list, taken key by key. -/
theorem sum_map_eq_sum_keys {β : Type u} {f : β → Int} {key : β → α} {keys : Finset α}
    (entries : List β) (covered : ∀ entry ∈ entries, key entry ∈ keys) :
    (entries.map f).sum =
      ∑ value ∈ keys, ((entries.filter fun entry => key entry == value).map f).sum := by
  induction entries with
  | nil => simp
  | cons entry rest ih =>
      have tail := ih fun other member => covered other (List.mem_cons_of_mem entry member)
      have split : ∀ value, (((entry :: rest).filter fun other => key other == value).map f).sum =
          (if key entry = value then f entry else 0) +
            ((rest.filter fun other => key other == value).map f).sum := by
        intro value
        by_cases same : key entry = value
        · rw [List.filter_cons_of_pos (by simpa using same), if_pos same]
          simp
        · rw [List.filter_cons_of_neg (by simpa using same), if_neg same]
          simp
      rw [List.map_cons, List.sum_cons, tail, Finset.sum_congr rfl fun value _ => split value,
        Finset.sum_add_distrib, Finset.sum_ite_eq, if_pos (covered entry List.mem_cons_self)]

section Standing

/-- What a series of verdicts leaves in force: an undecided one keeps what was. -/
def standing (verdicts : List (Option Bool)) : Bool :=
  verdicts.foldl (fun before verdict => verdict.getD before) false

theorem standing_concat (verdicts : List (Option Bool)) (last : Option Bool) :
    standing (verdicts ++ [last]) = last.getD (standing verdicts) := by
  simp only [standing, List.foldl_append, List.foldl_cons, List.foldl_nil]

/-- A positive verdict that only undecided ones follow, at least one. -/
def CarriedOver (verdicts : List (Option Bool)) : Prop :=
  ∃ earlier later, verdicts = earlier ++ some true :: later ∧ later ≠ [] ∧
    ∀ verdict ∈ later, verdict = none

theorem CarriedOver.last {verdicts : List (Option Bool)} {last : Option Bool}
    (carried : CarriedOver (verdicts ++ [last])) : last = none := by
  obtain ⟨earlier, later, same, nonempty, undecided⟩ := carried
  rcases List.eq_nil_or_concat later with rfl | ⟨front, final, rfl⟩
  · exact absurd rfl nonempty
  · rw [List.concat_eq_append, ← List.cons_append, ← List.append_assoc] at same
    have lasts := List.append_inj_right' same rfl
    rw [List.singleton_inj.mp lasts]
    exact undecided final (by simp)

theorem not_carriedOver {verdicts : List (Option Bool)}
    (decided : ∀ verdict ∈ verdicts, verdict ≠ none) : ¬CarriedOver verdicts := by
  rintro ⟨earlier, later, rfl, nonempty, undecided⟩
  obtain ⟨verdict, member⟩ := List.exists_mem_of_ne_nil later nonempty
  exact decided verdict (by simp [member]) (undecided verdict member)

theorem carriedOver_concat_none {verdicts : List (Option Bool)} :
    CarriedOver (verdicts ++ [none]) ↔
      verdicts.getLast? = some (some true) ∨ CarriedOver verdicts := by
  constructor
  · rintro ⟨earlier, later, same, nonempty, undecided⟩
    rcases List.eq_nil_or_concat later with rfl | ⟨front, final, rfl⟩
    · exact absurd rfl nonempty
    · rw [List.concat_eq_append, ← List.cons_append, ← List.append_assoc] at same
      have fronts := List.append_inj_left' same rfl
      rw [fronts]
      by_cases empty : front = []
      · subst empty
        exact Or.inl (by simp)
      · exact Or.inr ⟨earlier, front, rfl, empty, fun verdict member =>
          undecided verdict (by simp [member])⟩
  · rintro (positive | ⟨earlier, later, rfl, _, undecided⟩)
    · obtain ⟨front, rfl⟩ := List.getLast?_eq_some_iff.mp positive
      exact ⟨front, [none], by simp, by simp, by simp⟩
    · refine ⟨earlier, later ++ [none], by simp, by simp, ?_⟩
      intro verdict member
      rcases List.mem_append.mp member with old | new
      · exact undecided verdict old
      · exact List.mem_singleton.mp new

/-- What is in force was decided last, or is carried over. -/
theorem standing_iff (verdicts : List (Option Bool)) :
    standing verdicts = true ↔
      verdicts.getLast? = some (some true) ∨ CarriedOver verdicts := by
  induction verdicts using List.reverseRecOn with
  | nil => simp [standing, CarriedOver]
  | append_singleton front last ih =>
      rw [standing_concat, List.getLast?_concat]
      cases last with
      | none =>
          rw [Option.getD_none, ih, carriedOver_concat_none]
          simp
      | some decided =>
          have settled : ¬CarriedOver (front ++ [some decided]) := by
            intro carried
            cases carried.last
          rw [Option.getD_some]
          simp [settled]

end Standing

end Library
