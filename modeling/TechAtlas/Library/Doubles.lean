import Mathlib.Tactic
import Mathlib.Data.Int.Log
import TechAtlas.Library.Units

set_option autoImplicit false

/- The number that a text denotes as a 64-bit float: its exact value, rounded to
the nearest one. Values are rationals; what is no finite number is `none`, and
the two zeros are one. -/
namespace Library

section Rounding

/-- The nearest integer, the even one of two. -/
def roundEven (value : ℚ) : ℤ :=
  let below := ⌊value⌋
  if value - below < 1 / 2 then below
  else if 1 / 2 < value - below then below + 1
  else if below % 2 = 0 then below
  else below + 1

theorem roundEven_intCast (n : ℤ) : roundEven n = n := by
  unfold roundEven
  simp

/-- The distance of neighbouring floats around a value. -/
def ulpExponent (value : ℚ) : ℤ := max (Int.log 2 |value| - 52) (-1074)

def nearestDouble (value : ℚ) : Option ℚ :=
  let ulp : ℚ := 2 ^ ulpExponent value
  let rounded := roundEven (value / ulp) * ulp
  if |rounded| < 2 ^ 1024 then some rounded else none

theorem ulpExponent_nonpos {n : ℕ} (small : n < 2 ^ 53) : ulpExponent n ≤ 0 := by
  have below : Int.log 2 (n : ℚ) ≤ 52 := by
    rw [Int.log_natCast]
    have bound : Nat.log 2 n < 53 := by
      by_cases zero : n = 0
      · rw [zero, Nat.log_zero_right]
        decide
      · exact Nat.log_lt_of_lt_pow zero small
    omega
  unfold ulpExponent
  rw [abs_of_nonneg (Nat.cast_nonneg n)]
  omega

/-- An integer of 53 bits is a float. -/
theorem nearestDouble_natCast {n : ℕ} (small : n < 2 ^ 53) : nearestDouble n = some (n : ℚ) := by
  obtain ⟨k, exponent⟩ := Int.exists_eq_neg_ofNat (ulpExponent_nonpos small)
  have whole : (n : ℚ) / 2 ^ ulpExponent n = ((n * 2 ^ k : ℕ) : ℤ) := by
    rw [exponent, zpow_neg, div_inv_eq_mul]
    push_cast
    rw [zpow_natCast]
  have restored : (((n * 2 ^ k : ℕ) : ℤ) : ℚ) * 2 ^ ulpExponent n = n := by
    rw [← whole, div_mul_cancel₀]
    positivity
  have bounded : |(n : ℚ)| < 2 ^ 1024 := by
    rw [abs_of_nonneg (Nat.cast_nonneg n)]
    calc (n : ℚ) < 2 ^ 53 := by exact_mod_cast small
      _ ≤ 2 ^ 1024 := pow_le_pow_right₀ (by norm_num) (by norm_num)
  unfold nearestDouble
  dsimp only
  rw [whole, roundEven_intCast, restored, if_pos bounded]

end Rounding

section Numerals

def digitValue (unit : UInt16) : Nat :=
  if 48 ≤ unit && unit ≤ 57 then unit.toNat - 48
  else if 65 ≤ unit && unit ≤ 70 then unit.toNat - 55
  else if 97 ≤ unit && unit ≤ 102 then unit.toNat - 87
  else 36

/-- The value of a nonempty text of digits. -/
def digitsValue (radix : Nat) (text : Units) : Option Nat :=
  if text.isEmpty || text.any fun unit => decide (radix ≤ digitValue unit) then none
  else some (Nat.ofDigits radix (text.map digitValue).reverse)

/-- A sign and what it stands before. -/
def signed (text : Units) : Bool × Units :=
  match text with
  | 43 :: rest => (false, rest)
  | 45 :: rest => (true, rest)
  | _ => (false, text)

def isExponentLetter (unit : UInt16) : Bool := unit == 69 || unit == 101

def exponentValue (text : Units) : Option ℤ :=
  match text with
  | [] => some 0
  | _ :: exponent =>
      let (negative, digits) := signed exponent
      (digitsValue 10 digits).map fun n => if negative then -n else n

/-- Digits with a point among them or none, then an exponent or none. -/
def decimalValueOf (text : Units) : Option ℚ := do
  let mantissa := text.takeWhile fun unit => !isExponentLetter unit
  let exponent ← exponentValue (text.dropWhile fun unit => !isExponentLetter unit)
  let whole := mantissa.takeWhile (· != 46)
  let fraction := (mantissa.dropWhile (· != 46)).drop 1
  let digits ← digitsValue 10 (whole ++ fraction)
  some (digits * 10 ^ (exponent - fraction.length))

def radixOf (letter : UInt16) : Option Nat :=
  if letter == 120 || letter == 88 then some 16
  else if letter == 111 || letter == 79 then some 8
  else if letter == 98 || letter == 66 then some 2
  else none

/-- A literal with a radix has no sign. -/
def radixLiteral (text : Units) : Option (Nat × Units) :=
  match text with
  | 48 :: letter :: digits => (radixOf letter).map (·, digits)
  | _ => none

/-- `Number(text)`. -/
def stringToNumber (text : Units) : Option ℚ :=
  let text := trimUnits text
  if text.isEmpty then some 0
  else match radixLiteral text with
    | some (radix, digits) => (digitsValue radix digits).bind fun n => nearestDouble n
    | none =>
        let (negative, magnitude) := signed text
        ((decimalValueOf magnitude).bind nearestDouble).map fun n => if negative then -n else n

/-- The decimal digits of an integer. -/
def decimalUnits (n : Nat) : Units :=
  if n = 0 then [48] else ((Nat.digits 10 n).map fun d => UInt16.ofNat (48 + d)).reverse

end Numerals

section Reading

theorem decimalUnits_digit {n : Nat} :
    ∀ unit ∈ decimalUnits n, ∃ d < 10, unit = UInt16.ofNat (48 + d) := by
  intro unit member
  unfold decimalUnits at member
  split at member
  · exact ⟨0, by omega, List.mem_singleton.mp member⟩
  · rw [List.mem_reverse, List.mem_map] at member
    obtain ⟨d, digit, rfl⟩ := member
    exact ⟨d, Nat.digits_lt_base (by omega) digit, rfl⟩

theorem digit_plain : ∀ d < 10, digitValue (UInt16.ofNat (48 + d)) = d ∧
    isSpaceUnit (UInt16.ofNat (48 + d)) = false ∧
    isExponentLetter (UInt16.ofNat (48 + d)) = false ∧
    (UInt16.ofNat (48 + d) != 46) = true ∧ radixOf (UInt16.ofNat (48 + d)) = none ∧
    UInt16.ofNat (48 + d) ≠ 43 ∧ UInt16.ofNat (48 + d) ≠ 45 ∧
    isLeadSurrogate (UInt16.ofNat (48 + d)) = false ∧
    isTrailSurrogate (UInt16.ofNat (48 + d)) = false := by
  decide

theorem decimalUnits_ne_nil (n : Nat) : decimalUnits n ≠ [] := by
  unfold decimalUnits
  split
  · exact List.cons_ne_nil _ _
  · rename_i nonzero
    rw [Ne, List.reverse_eq_nil_iff, List.map_eq_nil_iff]
    exact Nat.digits_ne_nil_iff_ne_zero.mpr nonzero

theorem digitsValue_decimalUnits (n : Nat) : digitsValue 10 (decimalUnits n) = some n := by
  unfold digitsValue
  have allDigits : ((decimalUnits n).isEmpty ||
      (decimalUnits n).any fun unit => decide (10 ≤ digitValue unit)) = false := by
    rw [Bool.or_eq_false_iff, List.isEmpty_eq_false_iff, List.any_eq_false]
    refine ⟨decimalUnits_ne_nil n, ?_⟩
    intro unit member
    obtain ⟨d, small, rfl⟩ := decimalUnits_digit unit member
    rw [(digit_plain d small).1, decide_eq_true_eq]
    omega
  rw [allDigits, if_neg Bool.false_ne_true]
  congr 1
  unfold decimalUnits
  split
  · rename_i zero
    rw [zero]
    rfl
  · rw [List.map_reverse, List.reverse_reverse, List.map_map]
    have back : (Nat.digits 10 n).map (digitValue ∘ fun d => UInt16.ofNat (48 + d)) =
        (Nat.digits 10 n).map id := by
      apply List.map_congr_left
      intro d digit
      exact (digit_plain d (Nat.digits_lt_base (by omega) digit)).1
    rw [back, List.map_id, Nat.ofDigits_digits]

theorem trimmed_decimalUnits (n : Nat) : Trimmed (decimalUnits n) := by
  constructor
  · intro unit first
    obtain ⟨d, small, rfl⟩ := decimalUnits_digit unit (List.mem_of_head? first)
    exact (digit_plain d small).2.1
  · intro unit last
    obtain ⟨d, small, rfl⟩ := decimalUnits_digit unit (List.mem_of_getLast? last)
    exact (digit_plain d small).2.1

theorem radixLiteral_decimalUnits (n : Nat) : radixLiteral (decimalUnits n) = none := by
  unfold radixLiteral
  split
  · rename_i letter digits found
    have member : letter ∈ decimalUnits n := by
      rw [found]
      exact List.mem_cons_of_mem _ List.mem_cons_self
    obtain ⟨d, small, rfl⟩ := decimalUnits_digit letter member
    rw [(digit_plain d small).2.2.2.2.1]
    rfl
  · rfl

theorem signed_decimalUnits (n : Nat) : signed (decimalUnits n) = (false, decimalUnits n) := by
  have first : ∀ {unit : UInt16} {rest : Units}, decimalUnits n = unit :: rest →
      unit ≠ 43 ∧ unit ≠ 45 := by
    intro unit rest found
    have member : unit ∈ decimalUnits n := by
      rw [found]
      exact List.mem_cons_self
    obtain ⟨d, small, rfl⟩ := decimalUnits_digit unit member
    exact ⟨(digit_plain d small).2.2.2.2.2.1, (digit_plain d small).2.2.2.2.2.2.1⟩
  unfold signed
  split
  · rename_i found
    exact absurd rfl (first found).1
  · rename_i found
    exact absurd rfl (first found).2
  · rfl

theorem decimalValueOf_decimalUnits (n : Nat) :
    decimalValueOf (decimalUnits n) = some (n : ℚ) := by
  have noExponent : ∀ unit ∈ decimalUnits n, (!isExponentLetter unit) = true := by
    intro unit member
    obtain ⟨d, small, rfl⟩ := decimalUnits_digit unit member
    rw [(digit_plain d small).2.2.1]
    rfl
  have noPoint : ∀ unit ∈ decimalUnits n, (unit != 46) = true := by
    intro unit member
    obtain ⟨d, small, rfl⟩ := decimalUnits_digit unit member
    exact (digit_plain d small).2.2.2.1
  unfold decimalValueOf
  rw [List.takeWhile_eq_self_iff.mpr noExponent, List.dropWhile_eq_nil_iff.mpr noExponent]
  dsimp only [exponentValue]
  rw [List.takeWhile_eq_self_iff.mpr noPoint, List.dropWhile_eq_nil_iff.mpr noPoint]
  simp [digitsValue_decimalUnits]

/-- An integer of 53 bits is read back from its decimal digits. -/
theorem stringToNumber_decimalUnits {n : Nat} (small : n < 2 ^ 53) :
    stringToNumber (decimalUnits n) = some (n : ℚ) := by
  have nonempty : ¬(decimalUnits n).isEmpty = true := by
    rw [List.isEmpty_iff]
    exact decimalUnits_ne_nil n
  unfold stringToNumber
  dsimp only
  rw [(trimmed_decimalUnits n).trimUnits_eq, if_neg nonempty, radixLiteral_decimalUnits]
  dsimp only
  rw [signed_decimalUnits]
  dsimp only
  rw [decimalValueOf_decimalUnits, Option.bind_some, nearestDouble_natCast small]
  rfl

theorem toWellFormed_decimalUnits (n : Nat) : toWellFormed (decimalUnits n) = decimalUnits n := by
  apply toWellFormed_of_plain
  intro unit member
  obtain ⟨d, small, rfl⟩ := decimalUnits_digit unit member
  exact (digit_plain d small).2.2.2.2.2.2.2

end Reading

end Library
