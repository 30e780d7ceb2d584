import Mathlib.Tactic
import Mathlib.Data.List.Dedup
import Mathlib.Data.List.DropRight

set_option autoImplicit false

/- Strings of 16-bit code units, in which half of a surrogate pair may stand
alone: trimming, cutting, and replacing what is not well formed. -/
namespace Library

abbrev Units := List UInt16

/-- The units of an ASCII literal. -/
def units (literal : String) : Units := literal.toList.map fun c => UInt16.ofNat c.toNat

section Trim

/-- White space and line terminators. -/
def isSpaceUnit (unit : UInt16) : Bool :=
  (9 ≤ unit && unit ≤ 13) || unit == 32 || unit == 160 || unit == 5760 ||
    (8192 ≤ unit && unit ≤ 8202) || unit == 8232 || unit == 8233 || unit == 8239 ||
    unit == 8287 || unit == 12288 || unit == 65279

def trimUnits (text : Units) : Units := (text.dropWhile isSpaceUnit).rdropWhile isSpaceUnit

/-- No white space at either end. -/
structure Trimmed (text : Units) : Prop where
  first : ∀ unit, text.head? = some unit → isSpaceUnit unit = false
  last : ∀ unit, text.getLast? = some unit → isSpaceUnit unit = false

theorem Trimmed.trimUnits_eq {text : Units} (trimmed : Trimmed text) : trimUnits text = text := by
  have front : text.dropWhile isSpaceUnit = text := by
    cases text with
    | nil => rfl
    | cons unit rest =>
        apply List.dropWhile_cons_of_neg
        rw [trimmed.first unit rfl]
        exact Bool.false_ne_true
  rw [trimUnits, front, List.rdropWhile_eq_self_iff]
  intro nonempty
  rw [trimmed.last _ (List.getLast?_eq_some_getLast nonempty)]
  exact Bool.false_ne_true

theorem trimmed_trimUnits (text : Units) : Trimmed (trimUnits text) := by
  constructor
  · intro unit first
    have isPrefix : trimUnits text <+: text.dropWhile isSpaceUnit := List.rdropWhile_prefix _ _
    have firstOfRest : (text.dropWhile isSpaceUnit).head? = some unit := by
      obtain ⟨rest, whole⟩ := isPrefix
      rw [← whole, List.head?_append, first, Option.some_or]
    have stops := List.head?_dropWhile_not isSpaceUnit text
    rw [firstOfRest] at stops
    exact stops
  · intro unit last
    have nonempty : trimUnits text ≠ [] := by
      intro empty
      rw [empty] at last
      cases last
    have stops := List.rdropWhile_last_not isSpaceUnit (text.dropWhile isSpaceUnit) nonempty
    rw [List.getLast?_eq_some_getLast nonempty] at last
    rw [← Option.some.inj last]
    exact Bool.eq_false_iff.mpr stops

theorem trimUnits_eq_self_iff {text : Units} : trimUnits text = text ↔ Trimmed text := by
  constructor
  · intro same
    rw [← same]
    exact trimmed_trimUnits text
  · exact Trimmed.trimUnits_eq

/-- A cut leaves a trimmed text trimmed unless it ends in white space. -/
theorem Trimmed.take_iff {text : Units} (trimmed : Trimmed text) (n : Nat) :
    Trimmed (text.take (n + 1)) ↔
      ∀ unit, text[n]? = some unit → isSpaceUnit unit = false := by
  have lastOfCut : n < text.length → (text.take (n + 1)).getLast? = text[n]? := by
    intro inside
    rw [List.getLast?_eq_getElem?, List.length_take, Nat.min_eq_left (by omega),
      Nat.add_sub_cancel, List.getElem?_take_of_lt (by omega)]
  constructor
  · intro cut unit found
    have inside := (List.getElem?_eq_some_iff.mp found).1
    apply cut.last
    rw [lastOfCut inside, found]
  · intro kept
    constructor
    · intro unit first
      apply trimmed.first
      rw [← first, List.head?_take, if_neg (Nat.succ_ne_zero n)]
    · intro unit last
      by_cases inside : n < text.length
      · rw [lastOfCut inside] at last
        exact kept unit last
      · rw [List.take_of_length_le (by omega)] at last
        exact trimmed.last unit last

end Trim

section WellFormed

def isLeadSurrogate (unit : UInt16) : Bool := 0xD800 ≤ unit && unit ≤ 0xDBFF

def isTrailSurrogate (unit : UInt16) : Bool := 0xDC00 ≤ unit && unit ≤ 0xDFFF

def replacementUnit : UInt16 := 0xFFFD

/-- Each surrogate that stands alone is replaced. -/
def toWellFormed : Units → Units
  | [] => []
  | [unit] =>
      [if isLeadSurrogate unit || isTrailSurrogate unit then replacementUnit else unit]
  | unit :: next :: rest =>
      if isLeadSurrogate unit then
        if isTrailSurrogate next then unit :: next :: toWellFormed rest
        else replacementUnit :: toWellFormed (next :: rest)
      else if isTrailSurrogate unit then replacementUnit :: toWellFormed (next :: rest)
      else unit :: toWellFormed (next :: rest)

/-- Unit by unit, the text stays or is replaced. -/
theorem toWellFormed_units (text : Units) :
    List.Forall₂ (fun unit kept => kept = unit ∨ kept = replacementUnit) text
      (toWellFormed text) := by
  fun_induction toWellFormed text with
  | case1 => exact .nil
  | case2 unit =>
      apply List.Forall₂.cons _ .nil
      split
      · exact Or.inr rfl
      · exact Or.inl rfl
  | case3 unit next rest _ _ ih => exact .cons (Or.inl rfl) (.cons (Or.inl rfl) ih)
  | case4 unit next rest _ _ ih => exact .cons (Or.inr rfl) ih
  | case5 unit next rest _ _ ih => exact .cons (Or.inr rfl) ih
  | case6 unit next rest _ _ ih => exact .cons (Or.inl rfl) ih

theorem length_toWellFormed (text : Units) : (toWellFormed text).length = text.length :=
  (toWellFormed_units text).length_eq.symm

theorem toWellFormed_getElem? (text : Units) (n : Nat) :
    (toWellFormed text)[n]? = text[n]? ∨ (toWellFormed text)[n]? = some replacementUnit := by
  by_cases inside : n < text.length
  · have here := (toWellFormed_units text).get inside (by rw [length_toWellFormed]; exact inside)
    rw [List.getElem?_eq_getElem inside,
      List.getElem?_eq_getElem (by rw [length_toWellFormed]; exact inside)]
    exact here.imp (congrArg some) (congrArg some)
  · left
    have sameLength := length_toWellFormed text
    rw [List.getElem?_eq_none (show (toWellFormed text).length ≤ n by omega),
      List.getElem?_eq_none (show text.length ≤ n by omega)]

theorem Trimmed.toWellFormed {text : Units} (trimmed : Trimmed text) :
    Trimmed (toWellFormed text) := by
  have notSpace : isSpaceUnit replacementUnit = false := by decide
  constructor
  · intro unit first
    rw [List.head?_eq_getElem?] at first
    obtain same | replaced := toWellFormed_getElem? text 0
    · apply trimmed.first
      rw [List.head?_eq_getElem?, ← same, first]
    · rw [first] at replaced
      rw [Option.some.inj replaced]
      exact notSpace
  · intro unit last
    rw [List.getLast?_eq_getElem?, length_toWellFormed] at last
    obtain same | replaced := toWellFormed_getElem? text (text.length - 1)
    · apply trimmed.last
      rw [List.getLast?_eq_getElem?, ← same, last]
    · rw [last] at replaced
      rw [Option.some.inj replaced]
      exact notSpace

theorem toWellFormed_eq_nil_iff {text : Units} : toWellFormed text = [] ↔ text = [] := by
  rw [← List.length_eq_zero_iff, length_toWellFormed, List.length_eq_zero_iff]

theorem toWellFormed_of_plain {text : Units}
    (plain : ∀ unit ∈ text, isLeadSurrogate unit = false ∧ isTrailSurrogate unit = false) :
    toWellFormed text = text := by
  fun_induction toWellFormed text with
  | case1 => rfl
  | case2 unit => simp [plain unit List.mem_cons_self]
  | case3 unit next rest lead _ _ => simp [plain unit List.mem_cons_self] at lead
  | case4 unit next rest lead _ _ => simp [plain unit List.mem_cons_self] at lead
  | case5 unit next rest _ trail _ => simp [plain unit List.mem_cons_self] at trail
  | case6 unit next rest _ _ ih =>
      rw [ih fun later member => plain later (List.mem_cons_of_mem _ member)]

end WellFormed

section Distinct

variable {α : Type} [DecidableEq α]

/-- The members in the order of their first occurrences. -/
def distinct (items : List α) : List α := items.reverse.dedup.reverse

theorem nodup_distinct (items : List α) : (distinct items).Nodup :=
  List.nodup_reverse.mpr (List.nodup_dedup _)

theorem mem_distinct {items : List α} {item : α} : item ∈ distinct items ↔ item ∈ items := by
  rw [distinct, List.mem_reverse, List.mem_dedup, List.mem_reverse]

theorem distinct_eq_self {items : List α} (nodup : items.Nodup) : distinct items = items := by
  rw [distinct, List.Nodup.dedup (List.nodup_reverse.mpr nodup), List.reverse_reverse]

theorem distinct_sublist (items : List α) : List.Sublist (distinct items) items := by
  have shorter := (List.dedup_sublist items.reverse).reverse
  rwa [List.reverse_reverse] at shorter

/-- Nothing was dropped where as many are left. -/
theorem distinct_eq_of_length {items kept : List α} (same : distinct items = kept)
    (length : kept.length = items.length) : items = kept := by
  rw [← same] at length
  rw [← same, (distinct_sublist items).eq_of_length length]

end Distinct

end Library
