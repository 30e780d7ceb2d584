import Mathlib.Tactic

set_option autoImplicit false

/- The window function `LAG`: each row of an ordered list with the latest earlier row
of its partition. -/
namespace Library

universe u

variable {α : Type u}

/-- The rows already passed are held with the latest first. -/
def lag (same : α → α → Bool) : List α → List α → List (Option α × α)
  | _, [] => []
  | passed, row :: rest =>
      (passed.find? fun prior => same prior row, row) :: lag same (row :: passed) rest

theorem lag_map_snd (same : α → α → Bool) (passed rows : List α) :
    (lag same passed rows).map Prod.snd = rows := by
  induction rows generalizing passed with
  | nil => rfl
  | cons row rest ih => rw [lag, List.map_cons, ih]

theorem mem_lag {same : α → α → Bool} {passed rows : List α} {prior : Option α} {row : α} :
    (prior, row) ∈ lag same passed rows ↔
      ∃ before after, rows = before ++ row :: after ∧
        (before.reverse ++ passed).find? (fun prior => same prior row) = prior := by
  induction rows generalizing passed with
  | nil => simp [lag]
  | cons first rest ih =>
      rw [lag, List.mem_cons, ih]
      constructor
      · rintro (here | ⟨before, after, rfl, found⟩)
        · cases here
          exact ⟨[], rest, rfl, rfl⟩
        · refine ⟨first :: before, after, rfl, ?_⟩
          rw [List.reverse_cons, List.append_assoc]
          exact found
      · rintro ⟨before, after, split, found⟩
        cases before with
        | nil =>
            cases split
            exact .inl (Prod.ext found.symm rfl)
        | cons head before =>
            cases split
            refine .inr ⟨before, after, rfl, ?_⟩
            rw [List.reverse_cons, List.append_assoc] at found
            exact found

variable {lt : α → α → Prop} {same : α → α → Bool} {rows : List α} {prior row : α}

/-- In a strictly ordered list `LAG` is the next lower row of the partition. -/
theorem mem_lag_iff (asymm : ∀ a b, lt a b → ¬lt b a) (sorted : rows.Pairwise lt) :
    (some prior, row) ∈ lag same [] rows ↔
      prior ∈ rows ∧ row ∈ rows ∧ same prior row = true ∧ lt prior row ∧
        ∀ other ∈ rows, same other row = true → ¬(lt prior other ∧ lt other row) := by
  rw [mem_lag]
  constructor
  · rintro ⟨before, after, rfl, found⟩
    rw [List.append_nil] at found
    obtain ⟨together, later, earlier, split, apart⟩ := List.find?_eq_some_iff_append.mp found
    have order : before = earlier.reverse ++ prior :: later.reverse := by
      rw [← List.reverse_reverse before, split]
      simp
    subst order
    have member : prior ∈ earlier.reverse ++ prior :: later.reverse := by simp
    have across := (List.pairwise_append.mp sorted).2.2
    have below : lt prior row := across prior member row List.mem_cons_self
    refine ⟨List.mem_append_left _ member, by simp, together, below, ?_⟩
    intro other inRows alike between
    have within := List.pairwise_append.mp (List.pairwise_append.mp sorted).1
    rcases List.mem_append.mp inRows with inBefore | inAfter
    · rcases List.mem_append.mp inBefore with low | high
      · exact asymm prior other between.1 (within.2.2 other low prior List.mem_cons_self)
      · rcases List.mem_cons.mp high with rfl | inLater
        · exact asymm other other between.1 between.1
        · have no := apart other (List.mem_reverse.mp inLater)
          rw [alike] at no
          cases no
    · rcases List.mem_cons.mp inAfter with rfl | inLater
      · exact asymm other other between.2 between.2
      · have tail := (List.pairwise_append.mp sorted).2.1
        exact asymm other row between.2 ((List.pairwise_cons.mp tail).1 other inLater)
  · rintro ⟨inPrior, inRow, together, below, between⟩
    obtain ⟨before, after, rfl⟩ := List.append_of_mem inRow
    refine ⟨before, after, rfl, ?_⟩
    rw [List.append_nil]
    have inBefore : prior ∈ before := by
      rcases List.mem_append.mp inPrior with low | high
      · exact low
      · rcases List.mem_cons.mp high with rfl | inLater
        · exact absurd below (asymm _ _ below)
        · have tail := (List.pairwise_append.mp sorted).2.1
          exact absurd below (asymm _ _ ((List.pairwise_cons.mp tail).1 prior inLater))
    cases found : before.reverse.find? fun prior => same prior row with
    | none =>
        have no := List.find?_eq_none.mp found prior (List.mem_reverse.mpr inBefore)
        exact absurd together no
    | some latest =>
        obtain ⟨alike, later, earlier, split, apart⟩ := List.find?_eq_some_iff_append.mp found
        have order : before = earlier.reverse ++ latest :: later.reverse := by
          rw [← List.reverse_reverse before, split]
          simp
        subst order
        have member : latest ∈ earlier.reverse ++ latest :: later.reverse := by simp
        have within := List.pairwise_append.mp (List.pairwise_append.mp sorted).1
        rcases List.mem_append.mp inBefore with low | high
        · have after := (List.pairwise_append.mp sorted).2.2 latest member row List.mem_cons_self
          exact absurd ⟨within.2.2 prior low latest List.mem_cons_self, after⟩
            (between latest (List.mem_append_left _ member) alike)
        · rcases List.mem_cons.mp high with rfl | inLater
          · rfl
          · have no := apart prior (List.mem_reverse.mp inLater)
            rw [together] at no
            cases no

end Library
