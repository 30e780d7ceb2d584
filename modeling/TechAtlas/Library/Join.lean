import Mathlib.Tactic
import Mathlib.Data.List.ProdSigma

set_option autoImplicit false

/- Joins of tables, as nested loops over lists of rows. -/
namespace Library

universe u v w

variable {α : Type u} {κ : Type v} {ρ : Type w}

/-- The matches of a left join: every matching row, or one missing row. -/
def leftMatches (found : List α) : List (Option α) :=
  match found with
  | [] => [none]
  | first :: rest => (first :: rest).map some

@[simp] theorem leftMatches_nil : leftMatches ([] : List α) = [none] := rfl

theorem leftMatches_of_ne_nil {found : List α} (present : found ≠ []) :
    leftMatches found = found.map some := by
  cases found with
  | nil => exact absurd rfl present
  | cons first rest => rfl

@[simp] theorem leftMatches_toList (found : Option α) : leftMatches found.toList = [found] := by
  cases found <;> rfl

/-- A column that holds a value at most once matches at most one row. -/
theorem filter_key_eq_toList [BEq κ] [LawfulBEq κ] {key : α → κ} {table : List α}
    (unique : (table.map key).Nodup) (k : κ) :
    table.filter (fun row => key row == k) = (table.find? fun row => key row == k).toList := by
  induction table with
  | nil => rfl
  | cons row rest ih =>
      rw [List.map_cons, List.nodup_cons] at unique
      by_cases same : key row = k
      · have others : rest.filter (fun other => key other == k) = [] := by
          rw [List.filter_eq_nil_iff]
          intro other member matching
          exact unique.1 (List.mem_map.mpr ⟨other, member, (beq_iff_eq.mp matching).trans same.symm⟩)
        simp [same, others]
      · simpa [same] using ih unique.2

/-- Of the rows that different keys produce, one key's are those it produced. -/
theorem filter_flatMap_of_key {keys : List κ} {f : κ → List ρ} {p : ρ → Bool} {k : κ}
    (distinct : keys.Nodup) (member : k ∈ keys) (own : ∀ row ∈ f k, p row = true)
    (others : ∀ other ∈ keys, other ≠ k → ∀ row ∈ f other, p row = false) :
    (keys.flatMap f).filter p = f k := by
  induction keys with
  | nil => cases member
  | cons first rest ih =>
      rw [List.nodup_cons] at distinct
      rw [List.flatMap_cons, List.filter_append]
      have silent : ∀ other ∈ first :: rest, other ≠ k → (f other).filter p = [] := by
        intro other inKeys different
        rw [List.filter_eq_nil_iff]
        intro row inRows
        rw [others other inKeys different row inRows]
        exact Bool.false_ne_true
      by_cases same : first = k
      · subst same
        have rest_silent : (rest.flatMap f).filter p = [] := by
          rw [List.filter_eq_nil_iff]
          intro row inRows
          obtain ⟨other, inRest, found⟩ := List.mem_flatMap.mp inRows
          have different : other ≠ first := fun equal => distinct.1 (equal ▸ inRest)
          rw [others other (List.mem_cons_of_mem first inRest) different row found]
          exact Bool.false_ne_true
        rw [rest_silent, List.append_nil, List.filter_eq_self]
        exact own
      · have inRest : k ∈ rest := (List.mem_cons.mp member).resolve_left (Ne.symm same)
        rw [silent first List.mem_cons_self same, List.nil_append]
        exact ih distinct.2 inRest fun other inKeys =>
          others other (List.mem_cons_of_mem first inKeys)

end Library
