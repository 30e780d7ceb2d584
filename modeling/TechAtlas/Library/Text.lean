import Mathlib.Tactic
import Mathlib.Data.Char
import Mathlib.Data.List.Destutter
import Mathlib.Data.List.DropRight
import Mathlib.Data.List.Lex
import Mathlib.Data.List.Sort

set_option autoImplicit false

/- Text as the standard library of the source sees it: a sequence of Unicode
scalar values, whose length in bytes is that of its UTF-8 encoding. -/
namespace Library

abbrev Text := List Char

/-- The characters with the Unicode property `White_Space`. -/
def isWhitespace (c : Char) : Bool :=
  let n := c.toNat
  (9 ≤ n && n ≤ 13) || n == 32 || n == 0x85 || n == 0xA0 || n == 0x1680 ||
    (0x2000 ≤ n && n ≤ 0x200A) || n == 0x2028 || n == 0x2029 || n == 0x202F ||
    n == 0x205F || n == 0x3000

/-- `str::trim`. -/
def trim (text : Text) : Text :=
  (text.dropWhile isWhitespace).rdropWhile isWhitespace

/-- `str::len`: the length in bytes. -/
def utf8Length (text : Text) : Nat := (text.map fun c => c.utf8Size).sum

/-- A literal is checked character by character, where deciding the quantifier would go
through all of `Char`. -/
theorem forall_mem_of_all {text : Text} {p : Char → Prop} [DecidablePred p]
    (checked : (text.all fun c => decide (p c)) = true) : ∀ c ∈ text, p c :=
  fun c member => of_decide_eq_true (List.all_eq_true.mp checked c member)

theorem length_le_utf8Length (text : Text) : text.length ≤ utf8Length text := by
  induction text with
  | nil => exact Nat.zero_le _
  | cons c rest ih =>
      have positive := c.utf8Size_pos
      simp only [utf8Length, List.map_cons, List.sum_cons, List.length_cons] at ih ⊢
      omega

/-- `str::to_ascii_lowercase`. -/
def asciiLowercase (text : Text) : Text := text.map Char.toLower

/-- What follows the first occurrence of the separator, with what precedes it:
`str::split_once`. -/
def splitOnce (separator : Text) : Text → Option (Text × Text)
  | [] => if separator.isEmpty then some ([], []) else none
  | c :: rest =>
      if separator.isPrefixOf (c :: rest) then some ([], (c :: rest).drop separator.length)
      else (splitOnce separator rest).map fun (before, after) => (c :: before, after)

/-- What precedes the last occurrence of the character, with what follows it:
`str::rsplit_once`. -/
def rsplitOnce (c : Char) : Text → Option (Text × Text)
  | [] => none
  | d :: rest =>
      match rsplitOnce c rest with
      | some (before, after) => some (d :: before, after)
      | none => if d = c then some ([], rest) else none

theorem rsplitOnce_of_not_mem {c : Char} {text : Text} (absent : c ∉ text) :
    rsplitOnce c text = none := by
  induction text with
  | nil => rfl
  | cons d rest ih =>
      rw [List.mem_cons, not_or] at absent
      rw [rsplitOnce, ih absent.2, if_neg (Ne.symm absent.1)]

theorem rsplitOnce_append {c : Char} {after : Text} (absent : c ∉ after) (before : Text) :
    rsplitOnce c (before ++ c :: after) = some (before, after) := by
  induction before with
  | nil => rw [List.nil_append, rsplitOnce, rsplitOnce_of_not_mem absent, if_pos rfl]
  | cons d rest ih => rw [List.cons_append, rsplitOnce, ih]

/-- `str::contains` for a text pattern. -/
def containsText (pattern : Text) : Text → Bool
  | [] => pattern.isEmpty
  | c :: rest => pattern.isPrefixOf (c :: rest) || containsText pattern rest

/-- `str::strip_suffix` for one character, keeping the text when it does not end so. -/
def stripLast (c : Char) (text : Text) : Text :=
  if text.getLast? = some c then text.dropLast else text

section Ascii

variable {c : Char}

theorem isLower_iff : c.isLower = true ↔ 97 ≤ c.toNat ∧ c.toNat ≤ 122 := by
  change (decide ((97 : UInt32) ≤ c.val) && decide (c.val ≤ 122)) = true ↔ _
  simp only [Bool.and_eq_true, decide_eq_true_eq, UInt32.le_iff_toNat_le]
  rfl

theorem isUpper_iff : c.isUpper = true ↔ 65 ≤ c.toNat ∧ c.toNat ≤ 90 := by
  change decide ((65 : UInt32) ≤ c.val ∧ c.val ≤ 90) = true ↔ _
  simp only [decide_eq_true_eq, UInt32.le_iff_toNat_le]
  rfl

theorem toLower_of_not_isUpper (other : c.isUpper = false) : c.toLower = c := by
  apply dif_neg
  intro upper
  rw [show c.isUpper = true from decide_eq_true upper] at other
  cases other

theorem toLower_toNat (upper : c.isUpper = true) : c.toLower.toNat = c.toNat + 32 := by
  have bounds := isUpper_iff.mp upper
  have small : c.val.toNat + 32 < 2 ^ 32 := by
    have same : c.val.toNat = c.toNat := rfl
    omega
  have converted : c.toLower.val = c.val + 32 := by
    have inRange : c.val ≥ 'A'.val ∧ c.val ≤ 'Z'.val := of_decide_eq_true upper
    exact congrArg Char.val (dif_pos inRange)
  change c.toLower.val.toNat = c.val.toNat + 32
  rw [converted, UInt32.toNat_add]
  exact Nat.mod_eq_of_lt small

theorem isUpper_toLower (c : Char) : c.toLower.isUpper = false := by
  by_cases upper : c.isUpper = true
  · have lower := toLower_toNat upper
    have range := isUpper_iff.mp upper
    apply Bool.eq_false_iff.mpr
    intro still
    have above := isUpper_iff.mp still
    omega
  · have other : c.isUpper = false := by simpa using upper
    rw [toLower_of_not_isUpper other]
    exact other

theorem isWhitespace_toLower (letter : isWhitespace c = false) :
    isWhitespace c.toLower = false := by
  cases upper : c.isUpper with
  | false =>
      rw [toLower_of_not_isUpper upper]
      exact letter
  | true =>
      have bounds := isUpper_iff.mp upper
      have lower : c.toLower.toNat = c.toNat + 32 := toLower_toNat upper
      unfold isWhitespace
      simp only [Bool.or_eq_false_iff, Bool.and_eq_false_imp, decide_eq_true_eq,
        decide_eq_false_iff_not, beq_eq_false_iff_ne]
      omega

end Ascii

section Plain

theorem trim_eq_self {text : Text} (plain : ∀ c ∈ text, isWhitespace c = false) :
    trim text = text := by
  have kept : text.dropWhile isWhitespace = text := by
    rw [List.dropWhile_eq_self_iff]
    intro inside
    rw [plain _ (List.getElem_mem inside)]
    exact Bool.false_ne_true
  rw [trim, kept, List.rdropWhile_eq_self_iff]
  intro nonempty
  rw [plain _ (List.getLast_mem nonempty)]
  exact Bool.false_ne_true

theorem trim_last {text : Text} (nonempty : trim text ≠ []) :
    isWhitespace ((trim text).getLast nonempty) = false :=
  Bool.eq_false_iff.mpr
    (List.rdropWhile_last_not isWhitespace (text.dropWhile isWhitespace) nonempty)

theorem trim_first {text : Text} {c : Char} (first : (trim text).head? = some c) :
    isWhitespace c = false := by
  obtain ⟨rest, split⟩ := List.rdropWhile_prefix isWhitespace (text.dropWhile isWhitespace)
  have starts : (text.dropWhile isWhitespace).head? = some c := by
    rw [← split, List.head?_append]
    change ((trim text).head?.or _) = some c
    rw [first]
    rfl
  have kept := List.head?_dropWhile_not isWhitespace text
  rw [starts] at kept
  exact kept

theorem isPrefixOf_of_absent {pattern text : Text} {c : Char} (inPattern : c ∈ pattern)
    (absent : c ∉ text) : pattern.isPrefixOf text = false := by
  rw [← Bool.not_eq_true, List.isPrefixOf_iff_prefix]
  exact fun starts => absent (starts.subset inPattern)

/-- A pattern with a character that the text lacks does not occur in it. -/
theorem containsText_of_absent {pattern text : Text} {c : Char} (inPattern : c ∈ pattern)
    (absent : c ∉ text) : containsText pattern text = false := by
  induction text with
  | nil =>
      cases pattern with
      | nil => cases inPattern
      | cons first rest => rfl
  | cons first rest ih =>
      rw [containsText, isPrefixOf_of_absent inPattern absent, Bool.false_or]
      exact ih fun inRest => absent (List.mem_cons_of_mem first inRest)

theorem splitOnce_of_absent {pattern text : Text} {c : Char} (inPattern : c ∈ pattern)
    (absent : c ∉ text) : splitOnce pattern text = none := by
  induction text with
  | nil =>
      cases pattern with
      | nil => cases inPattern
      | cons first rest => rfl
  | cons first rest ih =>
      rw [splitOnce, isPrefixOf_of_absent inPattern absent]
      rw [ih fun inRest => absent (List.mem_cons_of_mem first inRest)]
      rfl

theorem splitOnce_eq_some {separator text before after : Text}
    (found : splitOnce separator text = some (before, after)) :
    text = before ++ separator ++ after := by
  induction text generalizing before with
  | nil =>
      unfold splitOnce at found
      split at found
      · rename_i empty
        cases found
        rw [List.isEmpty_iff.mp empty]
        rfl
      · cases found
  | cons c rest ih =>
      unfold splitOnce at found
      split at found
      · rename_i starts
        cases found
        obtain ⟨suffix, same⟩ := List.isPrefixOf_iff_prefix.mp starts
        rw [← same, List.drop_left, List.nil_append]
      · obtain ⟨⟨start, others⟩, own, same⟩ := Option.map_eq_some_iff.mp found
        cases same
        rw [ih own]
        rfl

/-- The first occurrence leaves at least as much as any other one. -/
theorem splitOnce_leftmost (separator : Text) (before after : Text) :
    ∃ start rest, splitOnce separator (before ++ separator ++ after) = some (start, rest) ∧
      after <:+ rest := by
  induction before with
  | nil =>
      cases separator with
      | nil =>
          cases after with
          | nil => exact ⟨[], [], rfl, List.suffix_refl []⟩
          | cons c after => exact ⟨[], c :: after, rfl, List.suffix_refl _⟩
      | cons c separator =>
          have starts : (c :: separator).isPrefixOf (c :: (separator ++ after)) = true :=
            List.isPrefixOf_iff_prefix.mpr ⟨after, rfl⟩
          have dropped : (c :: (separator ++ after)).drop (c :: separator).length = after :=
            List.drop_left
          refine ⟨[], after, ?_, List.suffix_refl after⟩
          change splitOnce (c :: separator) (c :: (separator ++ after)) = _
          rw [splitOnce, if_pos starts, dropped]
  | cons c before ih =>
      obtain ⟨start, rest, found, kept⟩ := ih
      change ∃ start rest, splitOnce separator (c :: (before ++ separator ++ after)) =
        some (start, rest) ∧ after <:+ rest
      rw [splitOnce]
      by_cases starts : separator.isPrefixOf (c :: (before ++ separator ++ after)) = true
      · rw [if_pos starts]
        refine ⟨[], _, rfl, ?_⟩
        have whole : after <:+ (c :: before) ++ separator ++ after := List.suffix_append _ _
        have left : (c :: (before ++ separator ++ after)).drop separator.length <:+
            (c :: before) ++ separator ++ after := List.drop_suffix _ _
        apply List.suffix_of_suffix_length_le whole left
        rw [List.length_drop]
        simp only [List.length_cons, List.length_append]
        omega
      · rw [if_neg starts, found]
        exact ⟨c :: start, rest, rfl, kept⟩

theorem stripLast_concat (c : Char) (text : Text) : stripLast c (text ++ [c]) = text := by
  simp [stripLast]

theorem stripLast_of_not {c : Char} {text : Text} (other : text.getLast? ≠ some c) :
    stripLast c text = text := if_neg other

end Plain

section Words

/-- `str::split_whitespace`; `current` holds the word so far, last character first. -/
def wordsFrom (current : Text) : Text → List Text
  | [] => if current.isEmpty then [] else [current.reverse]
  | c :: rest =>
      if isWhitespace c then
        if current.isEmpty then wordsFrom [] rest else current.reverse :: wordsFrom [] rest
      else wordsFrom (c :: current) rest

def splitWhitespace (text : Text) : List Text := wordsFrom [] text

def joinWords (words : List Text) : Text := [' '].intercalate words

theorem joinWords_cons_length (word : Text) (words : List Text) :
    (joinWords (word :: words)).length ≤ word.length + 1 + (joinWords words).length := by
  cases words with
  | nil =>
      simp only [joinWords, List.intercalate_singleton]
      omega
  | cons next words =>
      simp only [joinWords, List.intercalate_cons_cons, List.length_append, List.length_singleton]
      omega

theorem joinWords_length (current text : Text) :
    (joinWords (wordsFrom current text)).length ≤ current.length + text.length := by
  induction text generalizing current with
  | nil =>
      unfold wordsFrom
      split
      · exact Nat.zero_le _
      · simp only [joinWords, List.intercalate_singleton, List.length_reverse]
        omega
  | cons c rest ih =>
      have empty := ih []
      have longer := ih (c :: current)
      simp only [List.length_cons, List.length_nil] at empty longer ⊢
      unfold wordsFrom
      split
      · split
        · omega
        · have joined := joinWords_cons_length current.reverse (wordsFrom [] rest)
          rw [List.length_reverse] at joined
          omega
      · omega

theorem wordsFrom_skip {skipped : Text} (white : ∀ c ∈ skipped, isWhitespace c = true)
    (text : Text) : wordsFrom [] (skipped ++ text) = wordsFrom [] text := by
  induction skipped with
  | nil => rfl
  | cons c rest ih =>
      rw [List.cons_append, wordsFrom, if_pos (white c List.mem_cons_self)]
      exact ih fun other inRest => white other (List.mem_cons_of_mem c inRest)

theorem wordsFrom_append {skipped : Text} (white : ∀ c ∈ skipped, isWhitespace c = true)
    (text current : Text) : wordsFrom current (text ++ skipped) = wordsFrom current text := by
  induction text generalizing current with
  | nil =>
      cases skipped with
      | nil => rfl
      | cons c rest =>
          have blank : wordsFrom [] rest = [] := by
            have skip := wordsFrom_skip
              (fun other inRest => white other (List.mem_cons_of_mem c inRest)) []
            rwa [List.append_nil] at skip
          simp only [List.nil_append, wordsFrom, white c List.mem_cons_self, blank, ↓reduceIte]
  | cons c rest ih =>
      rw [List.cons_append, wordsFrom, wordsFrom]
      simp only [ih]

theorem splitWhitespace_trim (text : Text) : splitWhitespace (trim text) = splitWhitespace text := by
  have front : ∀ c ∈ text.takeWhile isWhitespace, isWhitespace c = true :=
    fun c member => List.mem_takeWhile_imp member
  have back : ∀ c ∈ (text.dropWhile isWhitespace).rtakeWhile isWhitespace,
      isWhitespace c = true := fun c member => List.mem_rtakeWhile_imp member
  have cut : text = text.takeWhile isWhitespace ++
      (trim text ++ (text.dropWhile isWhitespace).rtakeWhile isWhitespace) := by
    rw [trim, List.rdropWhile_append_rtakeWhile, List.takeWhile_append_dropWhile]
  calc splitWhitespace (trim text)
      = wordsFrom [] (trim text ++ (text.dropWhile isWhitespace).rtakeWhile isWhitespace) :=
        (wordsFrom_append back _ _).symm
    _ = wordsFrom [] (text.takeWhile isWhitespace ++
          (trim text ++ (text.dropWhile isWhitespace).rtakeWhile isWhitespace)) :=
        (wordsFrom_skip front _).symm
    _ = splitWhitespace text := by rw [← cut, splitWhitespace]

theorem joinWords_splitWhitespace_length (text : Text) :
    (joinWords (splitWhitespace text)).length ≤ (trim text).length := by
  have bounded := joinWords_length [] (trim text)
  rw [← splitWhitespace_trim, splitWhitespace]
  simpa using bounded

theorem wordsFrom_plain {current text word : Text}
    (plain : ∀ c ∈ current, isWhitespace c = false) (member : word ∈ wordsFrom current text) :
    word ≠ [] ∧ ∀ c ∈ word, isWhitespace c = false := by
  have whole : current.isEmpty = false →
      current.reverse ≠ [] ∧ ∀ c ∈ current.reverse, isWhitespace c = false := by
    intro present
    refine ⟨?_, fun c member => plain c (List.mem_reverse.mp member)⟩
    rw [Ne, List.reverse_eq_nil_iff]
    rwa [List.isEmpty_eq_false_iff] at present
  induction text generalizing current with
  | nil =>
      unfold wordsFrom at member
      split at member
      · cases member
      · rename_i present
        rw [List.mem_singleton] at member
        rw [member]
        exact whole (Bool.eq_false_iff.mpr present)
  | cons c rest ih =>
      have none : ∀ d ∈ ([] : Text), isWhitespace d = false := by
        intro d absurd
        cases absurd
      unfold wordsFrom at member
      split at member
      · split at member
        · exact ih none member (by simp)
        · rename_i present
          rcases List.mem_cons.mp member with rfl | later
          · exact whole (Bool.eq_false_iff.mpr present)
          · exact ih none later (by simp)
      · rename_i letter
        have longer : ∀ d ∈ c :: current, isWhitespace d = false := by
          intro d inLonger
          rcases List.mem_cons.mp inLonger with rfl | inCurrent
          · exact Bool.eq_false_iff.mpr letter
          · exact plain d inCurrent
        refine ih longer member fun _ => ⟨by simp, ?_⟩
        exact fun d inLonger => longer d (List.mem_reverse.mp inLonger)

theorem trim_length_le (text : Text) : (trim text).length ≤ text.length :=
  le_trans (List.rdropWhile_prefix isWhitespace _).length_le (List.length_dropWhile_le _ _)

theorem trim_ne_nil {text : Text} {c : Char} (member : c ∈ text)
    (letter : isWhitespace c = false) : trim text ≠ [] := by
  rw [trim, Ne, List.rdropWhile_eq_nil_iff]
  intro white
  have kept : c ∈ text.dropWhile isWhitespace := by
    have parts := List.takeWhile_append_dropWhile (p := isWhitespace) (l := text)
    rw [← parts] at member
    rcases List.mem_append.mp member with taken | dropped
    · have impossible := List.mem_takeWhile_imp taken
      rw [letter] at impossible
      cases impossible
    · exact dropped
  have impossible := white c kept
  rw [letter] at impossible
  cases impossible

theorem exists_mem_of_trim_ne_nil {text : Text} (present : trim text ≠ []) :
    ∃ c ∈ text, isWhitespace c = false := by
  refine ⟨(trim text).getLast present, ?_, trim_last present⟩
  have inTrim := List.getLast_mem present
  have kept := (List.rdropWhile_prefix isWhitespace (text.dropWhile isWhitespace)).subset inTrim
  exact (List.dropWhile_suffix isWhitespace).subset kept

/-- A text that is not blank is not blank in lower case. -/
theorem trim_asciiLowercase {text : Text} (present : trim text ≠ []) :
    trim (asciiLowercase text) ≠ [] := by
  obtain ⟨c, member, letter⟩ := exists_mem_of_trim_ne_nil present
  exact trim_ne_nil (List.mem_map_of_mem member) (isWhitespace_toLower letter)

/-- Joined words are not blank. -/
theorem trim_joinWords {text : Text} (present : joinWords (splitWhitespace text) ≠ []) :
    trim (joinWords (splitWhitespace text)) ≠ [] := by
  cases found : splitWhitespace text with
  | nil =>
      rw [found] at present
      exact (present rfl).elim
  | cons word words =>
      have inWords : word ∈ wordsFrom [] text := by
        change word ∈ splitWhitespace text
        rw [found]
        exact List.mem_cons_self
      have plain := wordsFrom_plain (by simp) inWords
      cases word with
      | nil => exact (plain.1 rfl).elim
      | cons c word =>
          have first : c ∈ joinWords ((c :: word) :: words) := by
            cases words <;> simp [joinWords]
          exact trim_ne_nil first (plain.2 c List.mem_cons_self)

/-- No whitespace at either end, and never two pieces of it in a row. -/
structure Collapsed (text : Text) : Prop where
  present : text ≠ []
  first : ∀ c ∈ text.head?, isWhitespace c = false
  last : ∀ c ∈ text.getLast?, isWhitespace c = false
  single : text.IsChain fun left right => ¬(isWhitespace left = true ∧ isWhitespace right = true)

theorem collapsed_of_plain {text : Text} (present : text ≠ [])
    (plain : ∀ c ∈ text, isWhitespace c = false) : Collapsed text := by
  refine ⟨present, ?_, ?_, ?_⟩
  · intro c first
    exact plain c (List.mem_of_mem_head? first)
  · intro c last
    exact plain c (List.mem_of_mem_getLast? last)
  · apply List.Pairwise.isChain
    apply List.pairwise_of_forall_mem_list
    intro left member right _ both
    rw [plain left member] at both
    exact absurd both.1 Bool.false_ne_true

theorem Collapsed.join {left right : Text} (before : Collapsed left) (after : Collapsed right) :
    Collapsed (left ++ ([' '] ++ right)) := by
  have rest : ([' '] ++ right) ≠ [] := List.cons_ne_nil _ _
  refine ⟨List.append_ne_nil_of_left_ne_nil before.present _, ?_, ?_, ?_⟩
  · intro c first
    rw [List.head?_append_of_ne_nil _ before.present] at first
    exact before.first c first
  · intro c last
    rw [List.getLast?_append_of_ne_nil _ rest,
      List.getLast?_append_of_ne_nil _ after.present] at last
    exact after.last c last
  · rw [List.isChain_append]
    refine ⟨before.single, ?_, ?_⟩
    · rw [List.isChain_append]
      refine ⟨List.isChain_singleton _, after.single, ?_⟩
      intro _ _ c first both
      rw [after.first c first] at both
      exact absurd both.2 Bool.false_ne_true
    · intro c last _ _ both
      rw [before.last c last] at both
      exact absurd both.1 Bool.false_ne_true

theorem collapsed_joinWords {words : List Text} (present : words ≠ [])
    (plain : ∀ word ∈ words, word ≠ [] ∧ ∀ c ∈ word, isWhitespace c = false) :
    Collapsed (joinWords words) := by
  induction words with
  | nil => exact absurd rfl present
  | cons word rest ih =>
      have own := plain word List.mem_cons_self
      have first := collapsed_of_plain own.1 own.2
      cases rest with
      | nil =>
          rw [joinWords, List.intercalate_singleton]
          exact first
      | cons next others =>
          have later := ih (List.cons_ne_nil _ _)
            fun other member => plain other (List.mem_cons_of_mem word member)
          rw [joinWords, List.intercalate_cons_cons, List.append_assoc]
          exact first.join later

end Words

/-- `str::lines`: a line ends at a line feed, with a carriage return before it if
there is one; `current` holds the line so far, last character first. -/
def linesFrom (current : Text) : Text → List Text
  | [] => if current.isEmpty then [] else [current.reverse]
  | c :: rest =>
      if c = '\n' then
        (if current.head? = some '\r' then current.tail.reverse else current.reverse) ::
          linesFrom [] rest
      else linesFrom (c :: current) rest

def lines (text : Text) : List Text := linesFrom [] text

section Utf8

/-- `String::into_bytes`. -/
def encodeUtf8 (text : Text) : List UInt8 := text.flatMap String.utf8EncodeChar

def isContinuation (byte : UInt8) : Bool := 0x80 ≤ byte && byte ≤ 0xBF

/-- `str::from_utf8`: overlong forms, surrogates and values past the last code
point are refused. -/
def decodeUtf8 : List UInt8 → Option Text
  | [] => some []
  | a :: rest =>
      if a < 0x80 then (decodeUtf8 rest).map (Char.ofNat a.toNat :: ·)
      else
        match rest with
        | [] => none
        | b :: rest =>
            let two := (a.toNat - 0xC0) * 64 + (b.toNat - 0x80)
            if !isContinuation b then none
            else if 0xC2 ≤ a && a ≤ 0xDF then (decodeUtf8 rest).map (Char.ofNat two :: ·)
            else
              match rest with
              | [] => none
              | c :: rest =>
                  let three := (a.toNat - 0xE0) * 4096 + (b.toNat - 0x80) * 64 + (c.toNat - 0x80)
                  if !isContinuation c then none
                  else if 0xE0 ≤ a && a ≤ 0xEF then
                    if 0x800 ≤ three && !(0xD800 ≤ three && three ≤ 0xDFFF) then
                      (decodeUtf8 rest).map (Char.ofNat three :: ·)
                    else none
                  else
                    match rest with
                    | [] => none
                    | d :: rest =>
                        let four := (a.toNat - 0xF0) * 262144 + (b.toNat - 0x80) * 4096 +
                          (c.toNat - 0x80) * 64 + (d.toNat - 0x80)
                        if isContinuation d && 0xF0 ≤ a && a ≤ 0xF4 && 0x10000 ≤ four &&
                            four ≤ 0x10FFFF then
                          (decodeUtf8 rest).map (Char.ofNat four :: ·)
                        else none

end Utf8

end Library
