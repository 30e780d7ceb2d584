import Mathlib.Tactic

set_option autoImplicit false

/- Rewriting a list from left to right: the leftmost match of a pattern is
replaced and the search goes on behind it. What a pattern finds at a place may
depend on the element before it and on everything that follows. -/
namespace Library

universe u v

variable {α : Type u} {κ : Type v}

/-- What a pattern captures at a place, and how many elements its match has after
the first. -/
abbrev Matcher (α : Type u) (κ : Type v) := Option α → List α → Option (κ × Nat)

/-- The first number counts the elements that still belong to the last match. -/
def rewriteFrom (m : Matcher α κ) (replacement : κ → List α) :
    Nat → Option α → List α → List α
  | _, _, [] => []
  | n + 1, _, c :: rest => rewriteFrom m replacement n (some c) rest
  | 0, before, c :: rest =>
      match m before (c :: rest) with
      | some (captures, n) => replacement captures ++ rewriteFrom m replacement n (some c) rest
      | none => c :: rewriteFrom m replacement 0 (some c) rest

/-- The list with every match replaced. -/
def rewrite (m : Matcher α κ) (replacement : κ → List α) (text : List α) : List α :=
  rewriteFrom m replacement 0 none text

def matchesFrom (m : Matcher α κ) : Nat → Option α → List α → List κ
  | _, _, [] => []
  | n + 1, _, c :: rest => matchesFrom m n (some c) rest
  | 0, before, c :: rest =>
      match m before (c :: rest) with
      | some (captures, n) => captures :: matchesFrom m n (some c) rest
      | none => matchesFrom m 0 (some c) rest

/-- Every match of the list, from left to right. -/
def found (m : Matcher α κ) (text : List α) : List κ := matchesFrom m 0 none text

/-- The search comes to the place behind the first elements: no match runs over it. -/
def reaches (m : Matcher α κ) : Nat → Option α → List α → Nat → Bool
  | n, _, _, 0 => n == 0
  | _, _, [], _ + 1 => false
  | n + 1, _, c :: rest, place + 1 => reaches m n (some c) rest place
  | 0, before, c :: rest, place + 1 =>
      match m before (c :: rest) with
      | some (_, n) => reaches m n (some c) rest place
      | none => reaches m 0 (some c) rest place

def lastOf : Option α → List α → Option α
  | before, [] => before
  | _, c :: rest => lastOf (some c) rest

/-- A match that ends within a list does not depend on what follows the list. -/
def Local (m : Matcher α κ) : Prop :=
  ∀ before text later later' captures n, m before (text ++ later) = some (captures, n) →
    n + 1 < text.length → m before (text ++ later') = some (captures, n)

variable {m : Matcher α κ} {replacement : κ → List α}

theorem lastOf_append (before : Option α) (first second : List α) :
    lastOf before (first ++ second) = lastOf (lastOf before first) second := by
  induction first generalizing before with
  | nil => rfl
  | cons c rest ih => exact ih (some c)

theorem lastOf_concat (before : Option α) (text : List α) (c : α) :
    lastOf before (text ++ [c]) = some c := lastOf_append before text [c]

theorem rewriteFrom_of_some {before : Option α} {c : α} {rest : List α} {captures : κ} {n : Nat}
    (matched : m before (c :: rest) = some (captures, n)) :
    rewriteFrom m replacement 0 before (c :: rest) =
      replacement captures ++ rewriteFrom m replacement n (some c) rest := by
  rw [rewriteFrom, matched]

theorem rewriteFrom_of_none {before : Option α} {c : α} {rest : List α}
    (failed : m before (c :: rest) = none) : rewriteFrom m replacement 0 before (c :: rest) =
      c :: rewriteFrom m replacement 0 (some c) rest := by
  rw [rewriteFrom, failed]

theorem reaches_of_some {before : Option α} {c : α} {rest : List α} {captures : κ}
    {n place : Nat} (matched : m before (c :: rest) = some (captures, n)) :
    reaches m 0 before (c :: rest) (place + 1) = reaches m n (some c) rest place := by
  rw [reaches, matched]

theorem reaches_of_none {before : Option α} {c : α} {rest : List α} {place : Nat}
    (failed : m before (c :: rest) = none) :
    reaches m 0 before (c :: rest) (place + 1) = reaches m 0 (some c) rest place := by
  rw [reaches, failed]

/-- Behind a match the search goes on where it ends. -/
theorem rewriteFrom_skip (m : Matcher α κ) (replacement : κ → List α) (before : Option α)
    (text later : List α) :
    rewriteFrom m replacement text.length before (text ++ later) =
      rewriteFrom m replacement 0 (lastOf before text) later := by
  induction text generalizing before with
  | nil => rfl
  | cons c rest ih => exact ih (some c)

theorem le_of_reaches {n : Nat} {before : Option α} {text : List α} {place : Nat}
    (reached : reaches m n before text place = true) : n ≤ place := by
  induction text generalizing n before place with
  | nil =>
      cases place with
      | zero =>
          cases n with
          | zero => exact le_refl 0
          | succ n => cases reached
      | succ place => cases n <;> cases reached
  | cons c rest ih =>
      cases place with
      | zero =>
          cases n with
          | zero => exact le_refl 0
          | succ n => cases reached
      | succ place =>
          cases n with
          | zero => exact Nat.zero_le _
          | succ n => exact Nat.succ_le_succ (ih reached)

/-- Where every match that starts in the list ends in it, the search comes to the
end of the list. -/
theorem reaches_of_within {n : Nat} {before : Option α} {text later : List α}
    (within : n ≤ text.length)
    (ends : ∀ first c rest, text = first ++ c :: rest → ∀ captures k,
      m (lastOf before first) (c :: (rest ++ later)) = some (captures, k) → k ≤ rest.length) :
    reaches m n before (text ++ later) text.length = true := by
  induction text generalizing n before with
  | nil =>
      rw [Nat.le_zero.mp within]
      cases later <;> rfl
  | cons c rest ih =>
      have others : ∀ first d others, rest = first ++ d :: others → ∀ captures k,
          m (lastOf (some c) first) (d :: (others ++ later)) = some (captures, k) →
            k ≤ others.length := by
        intro first d others split captures k matched
        exact ends (c :: first) d others (by rw [split]; rfl) captures k matched
      cases n with
      | succ n => exact ih (Nat.le_of_succ_le_succ within) others
      | zero =>
          rw [List.cons_append, List.length_cons]
          cases matched : m before (c :: (rest ++ later)) with
          | none =>
              rw [reaches_of_none matched]
              exact ih (Nat.zero_le _) others
          | some result =>
              rw [reaches_of_some matched]
              exact ih (ends [] c rest rfl _ _ matched) others

/-- Up to a place that the search comes to, the rewriting leaves something whose
difference from the list shows: what follows it can be told apart from what
follows the list, whenever each replacement can be told from its match. -/
theorem rewriteFrom_cancel
    (cancels : ∀ before text captures n, m before text = some (captures, n) →
      ∀ a b, text.take (n + 1) ++ a = replacement captures ++ b → a = b)
    {n : Nat} {before : Option α} {text later : List α}
    (reached : reaches m n before (text ++ later) text.length = true) :
    ∃ out, rewriteFrom m replacement n before (text ++ later) =
        out ++ rewriteFrom m replacement 0 (lastOf before text) later ∧
      ∀ a b, text.drop n ++ a = out ++ b → a = b := by
  induction text generalizing n before with
  | nil =>
      have zero : n = 0 := Nat.le_zero.mp (le_of_reaches reached)
      subst zero
      exact ⟨[], rfl, fun a b same => same⟩
  | cons c rest ih =>
      cases n with
      | succ n => exact ih reached
      | zero =>
          rw [List.cons_append] at reached ⊢
          cases matched : m before (c :: (rest ++ later)) with
          | none =>
              rw [List.length_cons, reaches_of_none matched] at reached
              obtain ⟨out, same, apart⟩ := ih reached
              refine ⟨c :: out, ?_, ?_⟩
              · rw [rewriteFrom_of_none matched, same]
                rfl
              · intro a b equal
                exact apart a b (List.cons.inj equal).2
          | some result =>
              obtain ⟨captures, k⟩ := result
              rw [List.length_cons, reaches_of_some matched] at reached
              obtain ⟨out, same, apart⟩ := ih reached
              have within : k ≤ rest.length := le_of_reaches reached
              refine ⟨replacement captures ++ out, ?_, ?_⟩
              · rw [rewriteFrom_of_some matched, same, List.append_assoc]
                rfl
              · intro a b equal
                apply apart a b
                apply cancels before _ captures k matched
                have front : (c :: (rest ++ later)).take (k + 1) = c :: rest.take k := by
                  rw [List.take_succ_cons, List.take_append_of_le_length within]
                have whole : c :: rest.take k ++ (rest.drop k ++ a) = c :: rest ++ a := by
                  rw [List.cons_append, ← List.append_assoc, List.take_append_drop]
                  rfl
                rw [front, whole, ← List.append_assoc]
                exact equal

/-- Two lists that agree beyond a place which both searches come to are rewritten
alike up to it. Where only the second search comes to it, the first finds a match
that the second does not, and that match runs over the place. -/
theorem rewriteFrom_agree (same : Local m) (replacement : κ → List α) (later : List α) {n : Nat}
    {before : Option α} {text shared later' : List α} (nonempty : shared ≠ [])
    (reached : reaches m n before (text ++ (shared ++ later')) text.length = true) :
    ∃ first second out, text = first ++ second ∧
      rewriteFrom m replacement n before (text ++ (shared ++ later)) =
        out ++ rewriteFrom m replacement 0 (lastOf before first) (second ++ (shared ++ later)) ∧
      rewriteFrom m replacement n before (text ++ (shared ++ later')) =
        out ++ rewriteFrom m replacement 0 (lastOf before first) (second ++ (shared ++ later')) ∧
      (second = [] ∧ reaches m n before (text ++ (shared ++ later)) text.length = true ∨
        second ≠ [] ∧ reaches m n before (text ++ (shared ++ later)) text.length = false ∧
          m (lastOf before first) (second ++ (shared ++ later')) = none ∧ ∃ captures k, m (lastOf before first) (second ++ (shared ++ later)) = some (captures, k) ∧
            second.length ≤ k) := by
  have positive : 0 < shared.length := List.length_pos_iff.mpr nonempty
  induction text generalizing n before with
  | nil =>
      have zero : n = 0 := Nat.le_zero.mp (le_of_reaches reached)
      subst zero
      refine ⟨[], [], [], rfl, rfl, rfl, .inl ⟨rfl, ?_⟩⟩
      cases shared ++ later <;> rfl
  | cons c rest ih =>
      cases n with
      | succ n =>
          obtain ⟨first, second, out, split, left, right, cases'⟩ := ih reached
          exact ⟨c :: first, second, out, by rw [split]; rfl, left, right, cases'⟩
      | zero =>
          rw [List.cons_append] at reached
          have short : ∀ t t' {captures k}, k ≤ rest.length →
              m before (c :: (rest ++ (shared ++ t))) = some (captures, k) →
              m before (c :: (rest ++ (shared ++ t'))) = some (captures, k) := by
            intro t t' captures k within matched
            have split : ∀ t, c :: (rest ++ (shared ++ t)) = c :: rest ++ shared ++ t := by
              intro t
              rw [List.cons_append, List.cons_append, List.append_assoc]
            rw [split] at matched ⊢
            apply same before _ t t' captures k matched
            rw [List.length_append, List.length_cons]
            omega
          cases right : m before (c :: (rest ++ (shared ++ later'))) with
          | some result =>
              obtain ⟨captures, k⟩ := result
              rw [List.length_cons, reaches_of_some right] at reached
              have left := short later' later (le_of_reaches reached) right
              obtain ⟨first, second, out, split, toLeft, toRight, cases'⟩ := ih reached
              refine ⟨c :: first, second, replacement captures ++ out, by rw [split]; rfl, ?_, ?_, ?_⟩
              · rw [List.cons_append, rewriteFrom_of_some left, toLeft, List.append_assoc]
                rfl
              · rw [List.cons_append, rewriteFrom_of_some right, toRight, List.append_assoc]
                rfl
              · rw [List.cons_append, List.length_cons, reaches_of_some left]
                exact cases'
          | none =>
              rw [List.length_cons, reaches_of_none right] at reached
              cases left : m before (c :: (rest ++ (shared ++ later))) with
              | none =>
                  obtain ⟨first, second, out, split, toLeft, toRight, cases'⟩ := ih reached
                  refine ⟨c :: first, second, c :: out, by rw [split]; rfl, ?_, ?_, ?_⟩
                  · rw [List.cons_append, rewriteFrom_of_none left, toLeft]
                    rfl
                  · rw [List.cons_append, rewriteFrom_of_none right, toRight]
                    rfl
                  · rw [List.cons_append, List.length_cons, reaches_of_none left]
                    exact cases'
              | some result =>
                  obtain ⟨captures, k⟩ := result
                  have beyond : rest.length < k := by
                    rcases Nat.lt_or_ge rest.length k with longer | within
                    · exact longer
                    · rw [short later later' within left] at right
                      cases right
                  refine ⟨[], c :: rest, [], rfl, rfl, rfl, .inr ⟨List.cons_ne_nil c rest, ?_, right,
                    captures, k, left, beyond⟩⟩
                  rw [List.cons_append, List.length_cons, reaches_of_some left, ← Bool.not_eq_true]
                  exact fun reached => Nat.not_le.mpr beyond (le_of_reaches reached)

/-- Where no match starts, nothing changes. -/
theorem rewriteFrom_literal {before : Option α} {text later : List α}
    (fails : ∀ first c rest, text = first ++ c :: rest →
      m (lastOf before first) (c :: (rest ++ later)) = none) :
    rewriteFrom m replacement 0 before (text ++ later) =
      text ++ rewriteFrom m replacement 0 (lastOf before text) later := by
  induction text generalizing before with
  | nil => rfl
  | cons c rest ih =>
      have failed : m before (c :: (rest ++ later)) = none := fails [] c rest rfl
      rw [List.cons_append, rewriteFrom_of_none failed, ih fun first d others split => fails (c :: first) d others (by rw [split]; rfl)]
      rfl

/-- A beginning that no replacement can have a part in was there before. -/
theorem rewriteFrom_prefix {start : List α} {before : Option α} {text a b : List α}
    (apart : ∀ part, part ≠ [] → part <:+ start → ∀ before text captures n,
      m before text = some (captures, n) → ∀ a b, replacement captures ++ a ≠ part ++ b)
    (same : rewriteFrom m replacement 0 before text ++ a = start ++ b) :
    start <+: text ∨ text <+: start := by
  induction start generalizing before text with
  | nil => exact .inl List.nil_prefix
  | cons c start ih =>
      cases text with
      | nil => exact .inr List.nil_prefix
      | cons d rest =>
          cases matched : m before (d :: rest) with
          | some result =>
              rw [rewriteFrom_of_some matched, List.append_assoc] at same
              exact absurd same (apart _ (List.cons_ne_nil c start) List.suffix_rfl before _ _ _
                matched _ _)
          | none =>
              rw [rewriteFrom_of_none matched] at same
              obtain ⟨rfl, tails⟩ := List.cons.inj same
              have smaller := ih
                (fun part nonempty suffix => apart part nonempty (suffix.trans (List.suffix_cons _ _)))
                tails
              rcases smaller with shorter | longer
              · exact .inl (List.cons_prefix_cons.mpr ⟨rfl, shorter⟩)
              · exact .inr (List.cons_prefix_cons.mpr ⟨rfl, longer⟩)

end Library
