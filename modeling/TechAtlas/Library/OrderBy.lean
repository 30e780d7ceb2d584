import Mathlib.Tactic
import Mathlib.Data.List.Sort

set_option autoImplicit false

/- Sorting by several keys, as a query orders its rows. -/
namespace Library

universe u v

variable {α : Type u} {β : Type v} {first second : α → α → Bool}

/-- The comparison orders any rows; rows may be tied. -/
structure Orders (le : α → α → Bool) : Prop where
  total : ∀ left right, le left right = true ∨ le right left = true
  trans : ∀ left middle right, le left middle = true → le middle right = true →
    le left right = true

/-- The rows the first comparison ties are left to the second one. -/
def thenBy (first second : α → α → Bool) (left right : α) : Bool :=
  !first right left || (first left right && second left right)

theorem thenBy_eq_true {left right : α} : thenBy first second left right = true ↔
    first right left = false ∨ (first left right = true ∧ second left right = true) := by
  simp only [thenBy, Bool.or_eq_true, Bool.not_eq_true', Bool.and_eq_true]

theorem Orders.on (orders : Orders first) (key : β → α) :
    Orders fun left right => first (key left) (key right) where
  total := fun left right => orders.total (key left) (key right)
  trans := fun left middle right => orders.trans (key left) (key middle) (key right)

/-- What comes before or is tied is not after. -/
theorem Orders.le_of_thenBy (orders : Orders first) {left right : α}
    (before : thenBy first second left right = true) : first left right = true := by
  rcases thenBy_eq_true.mp before with strict | ⟨tied, _⟩
  · rcases orders.total left right with forward | backward
    · exact forward
    · rw [strict] at backward
      cases backward
  · exact tied

theorem Orders.thenBy (orders : Orders first) (ties : Orders second) :
    Orders (thenBy first second) where
  total := by
    intro left right
    rw [thenBy_eq_true, thenBy_eq_true]
    by_cases forward : first left right = true
    · by_cases backward : first right left = true
      · rcases ties.total left right with before | after
        · exact Or.inl (Or.inr ⟨forward, before⟩)
        · exact Or.inr (Or.inr ⟨backward, after⟩)
      · exact Or.inl (Or.inl (Bool.eq_false_of_not_eq_true backward))
    · exact Or.inr (Or.inl (Bool.eq_false_of_not_eq_true forward))
  trans := by
    intro left middle right before after
    have leftMiddle := orders.le_of_thenBy before
    have middleRight := orders.le_of_thenBy after
    rw [thenBy_eq_true] at before after ⊢
    by_cases back : first right left = true
    · -- all three are tied by the first comparison
      have backMiddle := orders.trans right left middle back leftMiddle
      have middleBack := orders.trans middle right left middleRight back
      rcases before with strict | ⟨_, here⟩
      · rw [strict] at middleBack
        cases middleBack
      · rcases after with strict | ⟨_, there⟩
        · rw [strict] at backMiddle
          cases backMiddle
        · exact Or.inr ⟨orders.trans left middle right leftMiddle middleRight,
            ties.trans left middle right here there⟩
    · exact Or.inl (Bool.eq_false_of_not_eq_true back)

theorem Orders.sorted (orders : Orders first) (rows : List α) :
    (rows.insertionSort fun left right => first left right).Pairwise fun left right =>
      first left right = true := by
  have trans : IsTrans α fun left right => first left right = true :=
    ⟨fun left middle right => orders.trans left middle right⟩
  have total : Std.Total fun left right : α => first left right = true := ⟨orders.total⟩
  exact List.pairwise_insertionSort (fun left right => first left right = true) rows

end Library
