import TechAtlas.Worker.Redaction

set_option autoImplicit false

/- Whether the stored page tells anything of a redacted value. Two documents that
differ in the value are compared as the three patterns rewrite them. -/
namespace TechAtlas.Worker

open Library TechAtlas.Acquisition

section Assignments

variable {isWord : Char → Bool} {attributeName start : Text}

theorem split_unique {q : Char} {first second later later' : Text} (left : q ∉ first)
    (right : q ∉ second) (same : first ++ q :: later = second ++ q :: later') :
    first = second ∧ later = later' := by
  have taken := congrArg (List.takeWhile (· != q)) same
  rw [takeWhile_until left, takeWhile_until right] at taken
  subst taken
  exact ⟨rfl, (List.cons.inj (List.append_cancel_left same)).2⟩

theorem assignmentReplacement_of_prefix {captures : Captures}
    (named : captures.name "prefix" = some start) :
    assignmentReplacement captures = start ++ '"' :: (placeholder ++ ['"']) := by
  rw [assignmentReplacement, named]
  rfl

/-- A replacement can be told from the match it stands for. -/
theorem assignment_cancels (before : Option Char) (text : Text) (captures : Captures) (n : Nat)
    (found : assignmentAt isWord attributeName before text = some (captures, n)) (a b : Text)
    (same : text.take (n + 1) ++ a = assignmentReplacement captures ++ b) : a = b := by
  obtain ⟨start, value, later, rfl, opens, _, isValue, named, size⟩ :=
    exists_opens_of_assignmentAt found
  have positive : 0 < (start ++ value).length :=
    List.length_pos_iff.mpr fun nil => opens_ne_nil opens (List.append_eq_nil_iff.mp nil).1
  have total : n + 1 = (start ++ value).length := by omega
  rw [total, List.take_left, assignmentReplacement, named, Option.getD_some, List.append_assoc,
    List.append_assoc] at same
  have values : value ++ a = '"' :: (placeholder ++ '"' :: b) := List.append_cancel_left same
  cases isValue with
  | quoted q inner quote absent shape =>
      rw [shape] at values
      obtain ⟨rfl, inners⟩ := List.cons.inj values
      change inner ++ ['"'] ++ a = placeholder ++ '"' :: b at inners
      rw [List.append_assoc] at inners
      exact (split_unique absent (by decide) inners).2
  | bare nonempty bare stops =>
      cases value with
      | nil => exact absurd rfl nonempty
      | cons c rest =>
          obtain ⟨rfl, _⟩ := List.cons.inj values
          have impossible := bare '"' List.mem_cons_self
          exact absurd impossible (by decide)

/-- The letters of a name and of a text agree as far as both go. -/
def clashes (name text : Text) : Bool :=
  (List.zip name text).all fun pair => pair.2.toLower == pair.1

theorem clashes_of_append {name part a b : Text} (same : name ++ a = part ++ b) :
    clashes (asciiLowercase name) part = true := by
  induction name generalizing part with
  | nil => rfl
  | cons c name ih =>
      cases part with
      | nil => rfl
      | cons d part =>
          obtain ⟨rfl, tails⟩ := List.cons.inj same
          rw [clashes, asciiLowercase, List.map_cons, List.zip_cons_cons, List.all_cons,
            beq_self_eq_true, Bool.true_and]
          exact ih tails

/-- No part of the placeholder can come from an attribute name. -/
theorem assignment_apart (known : attributeName ∈ ["value".toList, "content".toList]) (part : Text)
    (nonempty : part ≠ []) (suffix : part <:+ placeholder ++ ['"']) (before : Option Char)
    (text : Text) (captures : Captures) (n : Nat)
    (found : assignmentAt isWord attributeName before text = some (captures, n)) (a b : Text) :
    assignmentReplacement captures ++ a ≠ part ++ b := by
  intro same
  obtain ⟨start, value, later, rfl, opens, _, _, named, _⟩ := exists_opens_of_assignmentAt found
  obtain ⟨name, gap, gap', rfl, lower, _⟩ := opens.parts
  rw [assignmentReplacement, named, Option.getD_some] at same
  simp only [List.append_assoc] at same
  have clash := clashes_of_append same
  rw [lower] at clash
  have none : ∀ name ∈ ["value".toList, "content".toList],
      ∀ part ∈ (placeholder ++ ['"']).tails, part = [] ∨ clashes name part = false := by
    decide +kernel
  rcases none attributeName known part ((List.mem_tails _ _).mpr suffix) with empty | apart
  · exact nonempty empty
  · rw [clash] at apart
    cases apart

end Assignments

section Openings

variable {isWord : Char → Bool} {attributeName start : Text}

/-- What the letters of the two attribute names are. -/
theorem letter_bounds {c : Char} (low : 97 ≤ c.toLower.toNat) (high : c.toLower.toNat ≤ 122) :
    65 ≤ c.toNat ∧ c.toNat ≤ 90 ∨ 97 ≤ c.toNat ∧ c.toNat ≤ 122 := by
  by_cases upper : c.isUpper = true
  · exact .inl (isUpper_iff.mp upper)
  · rw [toLower_of_not_isUpper (Bool.not_eq_true _ ▸ upper)] at low high
    exact .inr ⟨low, high⟩

theorem not_letter {c : Char} (other : isWhitespace c = true ∨ c = '=' ∨ isQuote c = true ∨
    isSeparator c = true) : ¬(97 ≤ c.toLower.toNat ∧ c.toLower.toNat ≤ 122) := by
  intro letter
  have bounds := letter_bounds letter.1 letter.2
  rcases other with white | rfl | quote | separator
  · unfold isWhitespace at white
    simp only [Bool.or_eq_true, Bool.and_eq_true, decide_eq_true_eq, beq_iff_eq] at white
    omega
  · exact absurd letter (by decide)
  · rw [isQuote, Bool.or_eq_true, beq_iff_eq, beq_iff_eq] at quote
    rcases quote with rfl | rfl <;> exact absurd letter (by decide)
  · simp only [isSeparator, Bool.or_eq_true, beq_iff_eq] at separator
    rcases separator with ((((rfl | rfl) | rfl) | feed) | rfl) | rfl
    all_goals first | exact absurd letter (by decide) | skip
    omega

theorem letters_of_known (known : attributeName ∈ ["value".toList, "content".toList]) :
    attributeName ≠ [] ∧ ∀ c ∈ attributeName, 97 ≤ c.toNat ∧ c.toNat ≤ 122 := by
  rcases List.mem_pair.mp known with rfl | rfl
  · exact ⟨by decide, forall_mem_of_all (by decide)⟩
  · exact ⟨by decide, forall_mem_of_all (by decide)⟩

theorem lastOf_mem (before : Option Char) {text : Text} (nonempty : text ≠ []) :
    ∃ c ∈ text, lastOf before text = some c := by
  induction text generalizing before with
  | nil => exact absurd rfl nonempty
  | cons c rest ih =>
      cases rest with
      | nil => exact ⟨c, List.mem_cons_self, rfl⟩
      | cons d rest =>
          obtain ⟨last, member, same⟩ := ih (some c) (List.cons_ne_nil d rest)
          exact ⟨last, List.mem_cons_of_mem c member, same⟩

theorem assignmentAt_eq_none {before : Option Char} {text : Text}
    (never : isBoundary isWord before text.head? = true →
      startsIgnoringCase attributeName text = true → False) :
    assignmentAt isWord attributeName before text = none := by
  rw [assignmentAt, if_neg]
  rw [Bool.and_eq_true]
  exact fun condition => never condition.1 condition.2

/-- A match starts with a letter. -/
theorem letter_of_starts (known : attributeName ∈ ["value".toList, "content".toList]) {c : Char}
    {rest : Text} (starts : startsIgnoringCase attributeName (c :: rest) = true) :
    97 ≤ c.toLower.toNat ∧ c.toLower.toNat ≤ 122 := by
  obtain ⟨nonempty, letters⟩ := letters_of_known known
  cases attributeName with
  | nil => exact absurd rfl nonempty
  | cons d word =>
      obtain ⟨other, _, same, lower, _⟩ := exists_cons_of_starts starts
      obtain ⟨rfl, _⟩ := List.cons.inj same
      rw [lower]
      exact letters d List.mem_cons_self

theorem letters_of_name (known : attributeName ∈ ["value".toList, "content".toList]) {name : Text}
    (lower : asciiLowercase name = attributeName) {c : Char} (member : c ∈ name) :
    97 ≤ c.toLower.toNat ∧ c.toLower.toNat ≤ 122 := by
  apply (letters_of_known known).2
  rw [← lower]
  exact List.mem_map_of_mem member

/-- Inside an opening and its quote no other match starts. -/
theorem opening_fails (words : AsciiWords isWord)
    (known : attributeName ∈ ["value".toList, "content".toList])
    (opens : Opens attributeName start) {q : Char} (quote : isQuote q = true)
    (before : Option Char) {first rest : Text} {c : Char} (nonempty : first ≠ [])
    (split : start ++ [q] = first ++ c :: rest) (later : Text) :
    assignmentAt isWord attributeName (lastOf before first) (c :: (rest ++ later)) = none := by
  apply assignmentAt_eq_none
  intro boundary starts
  have letter := letter_of_starts known starts
  obtain ⟨name, gap, gap', rfl, lower, white, white'⟩ := opens.parts
  have whole : name ++ (gap ++ '=' :: gap' ++ [q]) = first ++ c :: rest := by
    rw [← split]
    simp
  rcases List.append_eq_append_iff.mp whole with ⟨others, _, same⟩ | ⟨others, same, tails⟩
  · have member : c ∈ gap ++ '=' :: gap' ++ [q] := by
      rw [same]
      exact List.mem_append_right _ List.mem_cons_self
    apply not_letter _ letter
    simp only [List.mem_append, List.mem_cons, List.not_mem_nil, or_false] at member
    rcases member with (inGap | rfl | inGap) | rfl
    · exact .inl (white c inGap)
    · exact .inr (.inl rfl)
    · exact .inl (white' c inGap)
    · exact .inr (.inr (.inl quote))
  · obtain ⟨last, member, same'⟩ := lastOf_mem before nonempty
    have inName : last ∈ name := by
      rw [same]
      exact List.mem_append_left _ member
    have wordLast := letters_of_name known lower inName
    rw [isBoundary, same', List.head?_cons, Option.any_some, Option.any_some,
      isWord_of_lower words wordLast.1 wordLast.2, isWord_of_lower words letter.1 letter.2] at boundary
    exact absurd boundary (by decide)

/-- Where no value follows, an opening stays as it is. -/
theorem rewrite_opening (words : AsciiWords isWord)
    (known : attributeName ∈ ["value".toList, "content".toList])
    (opens : Opens attributeName start) {q : Char} (quote : isQuote q = true)
    (replacement : Captures → Text) {before : Option Char} {later : Text}
    (failed : assignmentAt isWord attributeName before (start ++ q :: later) = none) :
    rewriteFrom (assignmentAt isWord attributeName) replacement 0 before (start ++ q :: later) =
      start ++ q :: rewriteFrom (assignmentAt isWord attributeName) replacement 0 (some q) later := by
  have literal : rewriteFrom (assignmentAt isWord attributeName) replacement 0 before
      (start ++ [q] ++ later) = start ++ [q] ++
        rewriteFrom (assignmentAt isWord attributeName) replacement 0
          (lastOf before (start ++ [q])) later := by
    apply rewriteFrom_literal
    intro first c rest split
    by_cases empty : first = []
    · subst empty
      change assignmentAt isWord attributeName before ([] ++ c :: rest ++ later) = none
      rw [← split, List.append_assoc]
      exact failed
    · exact opening_fails words known opens quote before empty split later
  rw [lastOf_concat, List.append_assoc, List.append_assoc] at literal
  exact literal

end Openings

section Attributes

variable {isWord : Char → Bool} (e : Element)

theorem Element.known : e.attributeName ∈ ["value".toList, "content".toList] := by
  unfold Element.attributeName
  split <;> simp

theorem Element.opens : Opens e.attributeName e.opening := by
  rcases e.kind with ⟨lower, opens⟩ | ⟨lower, opens⟩
  · rw [Element.attributeName, if_pos lower]
    exact opens
  · rw [Element.attributeName, if_neg]
    · exact opens
    · rw [lower]
      decide

/-- The part of the tag before the attribute ends with a character that is no letter. -/
theorem Element.front_eq : ∃ init c, e.front = init ++ [c] ∧ (isSeparator c || isQuote c) = true := by
  obtain ⟨c, last, apart⟩ := e.apart
  obtain ⟨init, same⟩ := List.getLast?_eq_some_iff.mp (Option.mem_def.mp last)
  refine ⟨'<' :: (e.tagName ++ init), c, ?_, apart⟩
  rw [Element.front, same, List.cons_append, List.append_assoc]

theorem Element.opening_eq : ∃ c rest, e.opening = c :: rest ∧
    (97 ≤ c.toLower.toNat ∧ c.toLower.toNat ≤ 122) := by
  obtain ⟨name, gap, gap', same, lower, _⟩ := e.opens.parts
  obtain ⟨nonempty, _⟩ := letters_of_known e.known
  cases name with
  | nil => exact absurd lower.symm nonempty
  | cons c name =>
      refine ⟨c, name ++ gap ++ '=' :: gap', ?_, letters_of_name e.known lower List.mem_cons_self⟩
      rw [same]
      rfl

theorem Element.equals_mem : '=' ∈ e.opening := by
  obtain ⟨name, gap, gap', same, _⟩ := e.opens.parts
  rw [same]
  simp

theorem Element.no_quote {c : Char} (quote : isQuote c = true) : c ∉ e.opening := by
  obtain ⟨name, gap, gap', same, lower, white, white'⟩ := e.opens.parts
  rw [same]
  intro member
  simp only [List.mem_append, List.mem_cons] at member
  have dark := isWhitespace_of_isQuote quote
  rcases member with (inName | inGap) | rfl | inGap
  · exact not_letter (.inr (.inr (.inl quote))) (letters_of_name e.known lower inName)
  · rw [white c inGap] at dark
    cases dark
  · cases quote
  · rw [white' c inGap] at dark
    cases dark

theorem Element.boundary (words : AsciiWords isWord) :
    isBoundary isWord (lastOf none e.front) e.opening.head? = true := by
  obtain ⟨init, c, same, apart⟩ := e.front_eq
  obtain ⟨d, rest, opening, letter⟩ := e.opening_eq
  rw [same, lastOf_concat, opening, isBoundary, List.head?_cons, Option.any_some, Option.any_some,
    isWord_of_separator words apart, isWord_of_lower words letter.1 letter.2]
  rfl

/-- Past the letters of its name an opening has no letter. -/
theorem not_letter_of_opens {attributeName start first rest : Text} {c d : Char}
    (known : attributeName ∈ ["value".toList, "content".toList]) (opens : Opens attributeName start)
    (split : start = first ++ c :: d :: rest)
    (other : ¬(97 ≤ c.toLower.toNat ∧ c.toLower.toNat ≤ 122)) :
    ¬(97 ≤ d.toLower.toNat ∧ d.toLower.toNat ≤ 122) := by
  obtain ⟨name, gap, gap', same, lower, white, white'⟩ := opens.parts
  have whole : name ++ (gap ++ '=' :: gap') = first ++ [c] ++ d :: rest := by
    rw [← List.append_assoc, ← same, split]
    simp
  rcases List.append_eq_append_iff.mp whole with ⟨others, _, tails⟩ | ⟨others, named, _⟩
  · have member : d ∈ gap ++ '=' :: gap' := by
      rw [tails]
      exact List.mem_append_right _ List.mem_cons_self
    simp only [List.mem_append, List.mem_cons] at member
    rcases member with inGap | rfl | inGap
    · exact not_letter (.inl (white d inGap))
    · exact not_letter (.inr (.inl rfl))
    · exact not_letter (.inl (white' d inGap))
  · have member : c ∈ name := by
      rw [named]
      simp
    exact absurd (letters_of_name known lower member) other

theorem quoted_of_mem {value later : Text} (isValue : IsValue value later) {q : Char}
    (quote : isQuote q = true) (member : q ∈ value) :
    ∃ c inner, isQuote c = true ∧ c ∉ inner ∧ value = c :: inner ++ [c] := by
  cases isValue with
  | quoted c inner quote absent shape => exact ⟨c, inner, quote, absent, shape⟩
  | bare nonempty bare stops =>
      have impossible := bare q member
      rw [isBare_of_isQuote quote] at impossible
      cases impossible

/-- A match that runs over the attribute for one value and is none for another
starts with a quote of the other kind, which the value closes. -/
theorem exists_unclosed {before : Option Char} {second later later' : Text} {captures : Captures}
    {k : Nat} (ends : ∃ init c, second = init ++ [c] ∧ (isSeparator c || isQuote c) = true)
    (failed : assignmentAt isWord e.attributeName before
      (second ++ (e.opening ++ [e.quote] ++ later')) = none)
    (found : assignmentAt isWord e.attributeName before
      (second ++ (e.opening ++ [e.quote] ++ later)) = some (captures, k)) :
    ∃ start c rest, second = start ++ c :: rest ∧ Opens e.attributeName start ∧
      isQuote c = true ∧ c ≠ e.quote ∧ c ∉ rest ∧ captures.name "prefix" = some start := by
  obtain ⟨start, value, remaining, split, opens, boundary, isValue, named, size⟩ :=
    exists_opens_of_assignmentAt found
  have positive : 0 < (start ++ value).length :=
    List.length_pos_iff.mpr fun nil => opens_ne_nil opens (List.append_eq_nil_iff.mp nil).1
  rw [← List.append_assoc] at found failed split
  have long : (second ++ (e.opening ++ [e.quote])).length ≤ (start ++ value).length := by
    by_contra short
    have same := assignmentAt_local isWord e.attributeName before _ later later' captures k found
      (by omega)
    rw [failed] at same
    cases same
  obtain ⟨extra, whole⟩ : ∃ extra, start ++ value = second ++ (e.opening ++ e.quote :: extra) := by
    rcases List.append_eq_append_iff.mp split with ⟨extra, same, _⟩ | ⟨extra, same, _⟩
    · exact ⟨extra, by rw [same]; simp⟩
    · have total : (second ++ (e.opening ++ [e.quote])).length =
          (start ++ value).length + extra.length := by
        rw [same, List.length_append]
      have none : extra = [] := List.length_eq_zero_iff.mp (by omega)
      subst none
      exact ⟨[], by rw [← List.append_nil (start ++ value), ← same]⟩
  obtain ⟨d, others, opening, letter⟩ := e.opening_eq
  have not_quote : ∀ {c}, isQuote c = true → c ≠ d := by
    intro c quote same
    exact not_letter (.inr (.inr (.inl quote))) (same ▸ letter)
  rcases List.append_eq_append_iff.mp whole with ⟨part, same, values⟩ | ⟨part, same, openings⟩
  · obtain ⟨c, inner, quote, absent, shape⟩ := quoted_of_mem isValue e.quoted (by rw [values]; simp)
    rw [shape] at values
    cases part with
    | nil =>
        rw [opening] at values
        exact absurd (List.cons.inj values).1 (not_quote quote)
    | cons _ rest =>
        obtain ⟨rfl, inners⟩ := List.cons.inj values
        change inner ++ [c] = rest ++ (e.opening ++ e.quote :: extra) at inners
        rcases extra.eq_nil_or_concat with rfl | ⟨extra, last, rfl⟩
        · -- the match ends with the opening quote, so it is one for the other value as well
          have again := assignmentAt_of_opens opens boundary
            (.quoted c inner quote absent shape : IsValue value later')
          rw [whole, failed] at again
          cases again
        · have shorter : inner = rest ++ (e.opening ++ e.quote :: extra) := by
            rw [List.concat_eq_append, ← List.cons_append, ← List.append_assoc e.opening,
              ← List.append_assoc] at inners
            exact (List.append_inj' inners rfl).1
          refine ⟨start, c, rest, same, opens, quote, ?_, ?_, named⟩
          · rintro rfl
            apply absent
            rw [shorter]
            simp
          · intro member
            apply absent
            rw [shorter]
            exact List.mem_append_left _ member
  · cases part with
    | nil =>
        have values : value = e.opening ++ e.quote :: extra := openings.symm
        obtain ⟨c, inner, quote, _, shape⟩ := quoted_of_mem isValue e.quoted (by rw [values]; simp)
        rw [shape, opening] at values
        exact absurd (List.cons.inj values).1 (not_quote quote)
    | cons _ part =>
        rw [opening] at openings
        obtain ⟨rfl, _⟩ := List.cons.inj openings
        obtain ⟨init, c, ended, apart⟩ := ends
        rw [ended, List.append_assoc] at same
        have other : ¬(97 ≤ c.toLower.toNat ∧ c.toLower.toNat ≤ 122) := by
          rw [Bool.or_eq_true] at apart
          rcases apart with separator | quote
          · exact not_letter (.inr (.inr (.inr separator)))
          · exact not_letter (.inr (.inr (.inl quote)))
        exact absurd letter (not_letter_of_opens e.known opens same other)

end Attributes

section Rewriting

variable {isWord : Char → Bool} (e : Element) {v w : Text}

/-- The element's text with anything behind the opening quote. -/
def Element.textWith (later : Text) : Text := e.front ++ (e.opening ++ [e.quote] ++ later)

theorem Element.tagText_eq (v : Text) : e.tagText v = e.textWith (e.back v) := rfl

def Element.assignments (isWord : Char → Bool) (e : Element) (text : Text) : Text :=
  rewrite (assignmentAt isWord e.attributeName) assignmentReplacement text

/-- The attribute itself is replaced whatever its value is. -/
theorem rewrite_attribute (words : AsciiWords isWord) (absent : e.quote ∉ w) :
    rewriteFrom (assignmentAt isWord e.attributeName) assignmentReplacement 0 (lastOf none e.front)
        (e.opening ++ [e.quote] ++ e.back w) =
      e.opening ++ '"' :: (placeholder ++ '"' ::
        rewriteFrom (assignmentAt isWord e.attributeName) assignmentReplacement 0 (some e.quote)
          (e.tail ++ ['>'])) := by
  obtain ⟨d, rest, opening, _⟩ := e.opening_eq
  have isValue : IsValue (e.quote :: w ++ [e.quote]) (e.tail ++ ['>']) :=
    .quoted e.quote w e.quoted absent rfl
  have found := assignmentAt_of_opens e.opens (e.boundary words) isValue
  have text : e.opening ++ [e.quote] ++ e.back w =
      d :: (rest ++ e.quote :: w ++ [e.quote] ++ (e.tail ++ ['>'])) := by
    rw [opening]
    simp [Element.back]
  have whole : e.opening ++ (e.quote :: w ++ [e.quote]) ++ (e.tail ++ ['>']) =
      d :: (rest ++ e.quote :: w ++ [e.quote] ++ (e.tail ++ ['>'])) := by
    rw [opening]
    simp
  have size : (e.opening ++ (e.quote :: w ++ [e.quote])).length - 1 =
      (rest ++ e.quote :: w ++ [e.quote]).length := by
    rw [opening]
    simp
  rw [whole, size] at found
  rw [text, rewriteFrom_of_some found, rewriteFrom_skip, lastOf_concat,
    assignmentReplacement_of_prefix rfl, List.append_assoc]
  rfl

/-- Two values which the search comes to leave the same. -/
theorem assignments_eq (words : AsciiWords isWord) (absent : e.quote ∉ v) (absent' : e.quote ∉ w)
    (reached : reaches (assignmentAt isWord e.attributeName) 0 none (e.tagText v)
      e.front.length = true)
    (reached' : reaches (assignmentAt isWord e.attributeName) 0 none (e.tagText w)
      e.front.length = true) :
    e.assignments isWord (e.tagText v) = e.assignments isWord (e.tagText w) := by
  have nonempty : e.opening ++ [e.quote] ≠ [] := by simp
  obtain ⟨first, second, out, split, left, right, ended | diverged⟩ :=
    rewriteFrom_agree (assignmentAt_local isWord e.attributeName) assignmentReplacement
      (e.back v) nonempty reached'
  · rw [ended.1, List.append_nil] at split
    rw [ended.1, ← split, List.nil_append, rewrite_attribute e words absent] at left
    rw [ended.1, ← split, List.nil_append, rewrite_attribute e words absent'] at right
    exact left.trans right.symm
  · have missed := diverged.2.1
    change reaches _ 0 none (e.tagText v) _ = false at missed
    rw [reached] at missed
    cases missed

/-- A part without a double quote, and with a character that the placeholder has not,
is not rewritten to the placeholder. -/
theorem not_placeholder {attributeName : Text}
    (known : attributeName ∈ ["value".toList, "content".toList]) {part a b : Text}
    {before : Option Char} (rest : Text) (quiet : '"' ∉ part) {c : Char} (member : c ∈ part)
    (strange : c ∉ placeholder ++ ['"']) :
    rewriteFrom (assignmentAt isWord attributeName) assignmentReplacement 0 before (part ++ rest) ++
      a ≠ placeholder ++ '"' :: b := by
  intro same
  have start : placeholder ++ '"' :: b = placeholder ++ ['"'] ++ b := by simp
  rw [start] at same
  have shorter : ¬part <+: placeholder ++ ['"'] := fun shorter =>
    strange (shorter.subset member)
  rcases rewriteFrom_prefix (assignment_apart known) same with longer | whole
  · rcases List.prefix_or_prefix_of_prefix longer (List.prefix_append part rest) with inside | above
    · apply quiet
      apply inside.subset
      simp
    · exact shorter above
  · exact shorter ((List.prefix_append part rest).trans whole)

/-- A search that does not come to the attribute leaves something else than one that
does. -/
theorem assignments_ne_of_missed (words : AsciiWords isWord) {text : Text}
    (missed : reaches (assignmentAt isWord e.attributeName) 0 none (e.textWith text)
      e.front.length = false)
    (reached : reaches (assignmentAt isWord e.attributeName) 0 none (e.tagText w)
      e.front.length = true) (a b : Text) :
    e.assignments isWord (e.textWith text) ++ a ≠ e.assignments isWord (e.tagText w) ++ b := by
  intro same
  have nonempty : e.opening ++ [e.quote] ≠ [] := by simp
  obtain ⟨first, second, out, split, left, right, ended | ⟨long, _, failed, captures, k, found, _⟩⟩ :=
    rewriteFrom_agree (assignmentAt_local isWord e.attributeName) assignmentReplacement
      text nonempty reached
  · have other := ended.2
    change reaches _ 0 none (e.textWith text) _ = true at other
    rw [missed] at other
    cases other
  · have ends : ∃ init c, second = init ++ [c] ∧ (isSeparator c || isQuote c) = true := by
      obtain ⟨init, c, front, apart⟩ := e.front_eq
      obtain ⟨init', last, concat⟩ := List.eq_nil_or_concat second |>.resolve_left long
      rw [List.concat_eq_append] at concat
      rw [front, concat, ← List.append_assoc] at split
      obtain ⟨_, lasts⟩ := List.append_inj' split rfl
      rw [← (List.cons.inj lasts).1] at concat
      exact ⟨init', c, concat, apart⟩
    obtain ⟨start, c, rest, shape, opens, quote, other, closed, named⟩ :=
      exists_unclosed e ends failed found
    have text_eq : ∀ later, second ++ (e.opening ++ [e.quote] ++ later) =
        start ++ c :: (rest ++ (e.opening ++ [e.quote]) ++ later) := by
      intro later
      rw [shape]
      simp
    rw [text_eq] at left right failed found
    have opened := rewrite_opening words e.known opens quote assignmentReplacement failed
    rw [opened] at right
    obtain ⟨d, start', rfl⟩ := List.exists_cons_of_ne_nil (opens_ne_nil opens)
    rw [List.cons_append] at left found
    rw [rewriteFrom_of_some found, assignmentReplacement_of_prefix named] at left
    change e.assignments isWord (e.textWith text) = _ at left
    change e.assignments isWord (e.tagText w) = _ at right
    rw [left, right] at same
    simp only [List.append_assoc, List.cons_append, List.nil_append] at same
    have starts := (List.cons.inj (List.append_cancel_left same)).2
    obtain ⟨double, others⟩ := List.cons.inj (List.append_cancel_left starts)
    subst double
    -- the quote that the value closes is the double one, which the attribute has not
    have quiet : '"' ∉ rest ++ (e.opening ++ [e.quote]) := by
      intro member
      simp only [List.mem_append, List.mem_singleton] at member
      rcases member with inRest | inOpening | same
      · exact closed inRest
      · exact e.no_quote rfl inOpening
      · exact other same
    have equals : '=' ∈ rest ++ (e.opening ++ [e.quote]) :=
      List.mem_append_right _ (List.mem_append_left _ e.equals_mem)
    apply not_placeholder e.known (e.back w) quiet equals (by decide)
    rw [List.append_assoc rest, List.append_assoc e.opening]
    exact others.symm

/-- A tag that ends within the value leaves something else than one that holds the
whole value. -/
theorem assignments_ne_of_truncated (words : AsciiWords isWord) {part : Text}
    (open' : e.quote ∉ part) (absent : e.quote ∉ w)
    (reached : reaches (assignmentAt isWord e.attributeName) 0 none (e.tagText w)
      e.front.length = true) (a b : Text) :
    e.assignments isWord (e.textWith (part ++ ['>'])) ++ a ≠
      e.assignments isWord (e.tagText w) ++ b := by
  cases missed : reaches (assignmentAt isWord e.attributeName) 0 none
      (e.textWith (part ++ ['>'])) e.front.length with
  | false => exact assignments_ne_of_missed e words missed reached a b
  | true =>
      intro same
      have nonempty : e.opening ++ [e.quote] ≠ [] := by simp
      obtain ⟨first, second, out, split, left, right, ended | diverged⟩ :=
        rewriteFrom_agree (assignmentAt_local isWord e.attributeName) assignmentReplacement
          (part ++ ['>']) nonempty reached
      · rw [ended.1, List.append_nil] at split
        rw [ended.1, ← split, List.nil_append] at left right
        have unclosed : e.quote ∉ part ++ ['>'] := by
          intro member
          rcases List.mem_append.mp member with inPart | last
          · exact open' inPart
          · have quote := e.quoted
            rw [List.mem_singleton.mp last] at quote
            cases quote
        have failed := assignmentAt_unclosed e.opens (e.boundary words) e.quoted unclosed
        have opened := rewrite_opening words e.known e.opens e.quoted assignmentReplacement failed
        have regroup : e.opening ++ [e.quote] ++ (part ++ ['>']) =
            e.opening ++ e.quote :: (part ++ ['>']) := by simp
        change e.assignments isWord (e.textWith (part ++ ['>'])) = _ at left
        change e.assignments isWord (e.tagText w) = _ at right
        rw [regroup, opened] at left
        rw [rewrite_attribute e words absent] at right
        rw [left, right] at same
        simp only [List.append_assoc] at same
        have tails := List.append_cancel_left (List.append_cancel_left same)
        obtain ⟨double, others⟩ := List.cons.inj tails
        rw [double] at unclosed
        have last : '>' ∈ part ++ ['>'] := List.mem_append_right _ List.mem_cons_self
        rw [← List.append_nil (part ++ ['>'])] at others
        exact not_placeholder e.known [] unclosed last (by decide) others
      · have never := diverged.2.1
        change reaches _ 0 none (e.textWith (part ++ ['>'])) _ = false at never
        rw [missed] at never
        cases never

/-- Only the placeholder itself can be taken for a text that was rewritten. -/
theorem placeholder_of_unchanged (words : AsciiWords isWord) (absent : e.quote ∉ w) {text a b : Text}
    (reached : reaches (assignmentAt isWord e.attributeName) 0 none (e.tagText w)
      e.front.length = true)
    (same : e.textWith text ++ a = e.assignments isWord (e.tagText w) ++ b) :
    e.quote = '"' ∧ ∃ later, text ++ a = placeholder ++ '"' :: later := by
  obtain ⟨out, rewritten, cancels⟩ := rewriteFrom_cancel assignment_cancels reached
  rw [rewrite_attribute e words absent] at rewritten
  change e.assignments isWord (e.tagText w) = _ at rewritten
  rw [rewritten, Element.textWith, List.append_assoc, List.append_assoc out] at same
  have tails := cancels _ _ same
  simp only [List.append_assoc] at tails
  obtain ⟨double, others⟩ := List.cons.inj (List.append_cancel_left tails)
  exact ⟨double, _, others⟩

end Rewriting

section Documents

variable {isWord : Char → Bool} {patterns : RedactionPatterns} (e : Element) {v w : Text}

theorem Element.no_end : '>' ∉ e.opening := by
  obtain ⟨name, gap, gap', same, lower, white, white'⟩ := e.opens.parts
  rw [same]
  intro member
  simp only [List.mem_append, List.mem_cons] at member
  rcases member with (inName | inGap) | equal | inGap
  · exact absurd (letters_of_name e.known lower inName) (by decide)
  · exact absurd (white _ inGap) (by decide)
  · cases equal
  · exact absurd (white' _ inGap) (by decide)

/-- What the redaction leaves of the element's tag. -/
def Element.replaced (isWord : Char → Bool) (patterns : RedactionPatterns) (e : Element)
    (tag : Text) : Text :=
  if tagHasSensitiveIdentifier patterns tag then e.assignments isWord tag else tag

theorem tagReplacement_eq (documented : Documented isWord patterns) (tag : Text) :
    tagReplacement patterns { whole := tag, groups := [("tag".toList, e.tagName)] } =
      e.replaced isWord patterns tag := by
  obtain ⟨expression, compiled, same⟩ := documented.assignment e.attributeName e.known
  have redacted : redactTagAttribute patterns tag e.attributeName = e.assignments isWord tag := by
    rw [redactTagAttribute, compiled]
    exact same tag assignmentReplacement
  change (if tagHasSensitiveIdentifier patterns tag then
    redactTagAttribute patterns tag e.attributeName else tag) = _
  rw [redacted, Element.replaced]

/-- Two documents that are the same up to the opening quote are redacted alike up to the
element, of which the tag ends with the first `>` behind the quote. -/
theorem redact_documents (words : AsciiWords isWord) (documented : Documented isWord patterns)
    (head : '>' ∉ e.head) {inner inner' : Text} (absent : '>' ∉ inner) (absent' : '>' ∉ inner')
    (later later' : Text) : ∃ out,
      redactHtmlPersistenceValues patterns (e.before ++ (e.textWith (inner ++ ['>']) ++ later)) =
        out ++ (e.replaced isWord patterns (e.textWith (inner ++ ['>'])) ++
          rewriteFrom (tagAt isWord) (tagReplacement patterns) 0 (some '>') later) ∧
      redactHtmlPersistenceValues patterns (e.before ++ (e.textWith (inner' ++ ['>']) ++ later')) =
        out ++ (e.replaced isWord patterns (e.textWith (inner' ++ ['>'])) ++
          rewriteFrom (tagAt isWord) (tagReplacement patterns) 0 (some '>') later') := by
  have redact : ∀ html, redactHtmlPersistenceValues patterns html =
      rewrite (tagAt isWord) (tagReplacement patterns) html :=
    fun html => documented.tag html (tagReplacement patterns)
  have regroup : ∀ inner later, e.textWith (inner ++ ['>']) ++ later =
      '<' :: (e.tagName ++ (e.head ++ (e.opening ++ [e.quote] ++ inner) ++ '>' :: later)) := by
    intro inner later
    simp [Element.textWith, Element.front]
  have ends : ∀ {inner}, '>' ∉ inner → '>' ∉ e.head ++ (e.opening ++ [e.quote] ++ inner) := by
    intro inner absent member
    simp only [List.mem_append, List.mem_singleton] at member
    rcases member with inHead | (inOpening | same) | inInner
    · exact head inHead
    · exact e.no_end inOpening
    · have quote := e.quoted
      rw [← same] at quote
      cases quote
    · exact absent inInner
  have separated : ∀ inner, ∃ c ∈ (e.head ++ (e.opening ++ [e.quote] ++ inner)).head?,
      isSeparator c = true := by
    intro inner
    obtain ⟨c, first, separator⟩ := e.separated
    refine ⟨c, ?_, separator⟩
    rw [List.head?_append, Option.mem_def.mp first]
    rfl
  have element : ∀ {inner}, '>' ∉ inner → ∀ later, rewriteFrom (tagAt isWord)
      (tagReplacement patterns) 0 (lastOf none e.before) (e.textWith (inner ++ ['>']) ++ later) =
        e.replaced isWord patterns (e.textWith (inner ++ ['>'])) ++
          rewriteFrom (tagAt isWord) (tagReplacement patterns) 0 (some '>') later := by
    intro inner absent later
    have tag := regroup inner []
    rw [List.append_nil] at tag
    rw [regroup, rewrite_element words e _ _ (separated inner) (ends absent), tag,
      ← tagReplacement_eq e documented]
    simp
  obtain ⟨out, left, right⟩ := rewrite_before isWord e (tagReplacement patterns)
    (e.tagName ++ (e.head ++ (e.opening ++ [e.quote] ++ inner) ++ '>' :: later))
    (e.tagName ++ (e.head ++ (e.opening ++ [e.quote] ++ inner') ++ '>' :: later'))
  rw [← regroup, element absent, ← redact] at left
  rw [← regroup, element absent', ← redact] at right
  exact ⟨out, left, right⟩

theorem Element.document_eq (v : Text) : e.document v =
    e.before ++ (e.textWith (v ++ e.quote :: e.tail ++ ['>']) ++ e.after) := by
  rw [Element.document, Element.tagText_eq, Element.back, List.append_assoc v]
  rfl

/-- A value with a `>` is cut there, and the tag with it. -/
theorem Element.document_of_end (part rest : Text) : e.document (part ++ '>' :: rest) =
    e.before ++ (e.textWith (part ++ ['>']) ++
      (rest ++ e.quote :: (e.tail ++ ['>']) ++ e.after)) := by
  rw [Element.document_eq]
  simp [Element.textWith]

theorem Element.quoted_end (absent : '>' ∉ v) : '>' ∉ v ++ e.quote :: e.tail := by
  intro member
  simp only [List.mem_append, List.mem_cons] at member
  rcases member with inValue | same | inTail
  · exact absent inValue
  · have quote := e.quoted
    rw [← same] at quote
    cases quote
  · exact e.ended inTail

theorem Redactable.replaced (redactable : Redactable isWord patterns e v) :
    e.replaced isWord patterns (e.tagText v) = e.assignments isWord (e.tagText v) := by
  rw [Element.replaced, if_pos redactable.recognised]

theorem redact_eq (words : AsciiWords isWord) (documented : Documented isWord patterns)
    (absent : e.quote ∉ v) (absent' : e.quote ∉ w) (redactable : Redactable isWord patterns e v)
    (redactable' : Redactable isWord patterns e w) :
    redactHtmlPersistenceValues patterns (e.document v) =
      redactHtmlPersistenceValues patterns (e.document w) := by
  obtain ⟨out, left, right⟩ := redact_documents e words documented redactable.head
    (e.quoted_end redactable.value) (e.quoted_end redactable'.value) e.after e.after
  rw [← Element.document_eq] at left right
  rw [left, right]
  change out ++ (e.replaced isWord patterns (e.textWith (v ++ e.quote :: e.tail ++ ['>'])) ++ _) =
    out ++ (e.replaced isWord patterns (e.textWith (w ++ e.quote :: e.tail ++ ['>'])) ++ _)
  have tag : ∀ v, e.textWith (v ++ e.quote :: e.tail ++ ['>']) = e.tagText v := by
    intro v
    rw [Element.tagText_eq, Element.back, List.append_assoc v]
    rfl
  rw [tag, tag, redactable.replaced, redactable'.replaced,
    assignments_eq e words absent absent' redactable.reached redactable'.reached]

/-- Against a value that is removed, a document tells of every other one that is not,
save the placeholder. -/
theorem redactable_of_redact_eq (words : AsciiWords isWord)
    (documented : Documented isWord patterns) (absent : e.quote ∉ v) (absent' : e.quote ∉ w)
    (redactable : Redactable isWord patterns e w) (other : v ≠ placeholder)
    (same : redactHtmlPersistenceValues patterns (e.document v) =
      redactHtmlPersistenceValues patterns (e.document w)) :
    Redactable isWord patterns e v := by
  have tag : ∀ v, e.textWith (v ++ e.quote :: e.tail ++ ['>']) = e.tagText v := by
    intro v
    rw [Element.tagText_eq, Element.back, List.append_assoc v]
    rfl
  by_cases ended : '>' ∈ v
  · obtain ⟨part, rest, rfl, early⟩ := List.eq_append_cons_of_mem ended
    have open' : e.quote ∉ part := fun member => absent (List.mem_append_left _ member)
    obtain ⟨out, left, right⟩ := redact_documents e words documented redactable.head early
      (e.quoted_end redactable.value) (rest ++ e.quote :: (e.tail ++ ['>']) ++ e.after) e.after
    rw [← Element.document_eq, tag, redactable.replaced] at right
    rw [← Element.document_of_end, same, right] at left
    have tails := (List.append_cancel_left left).symm
    by_cases recognised : tagHasSensitiveIdentifier patterns (e.textWith (part ++ ['>'])) = true
    · rw [Element.replaced, if_pos recognised] at tails
      exact absurd tails
        (assignments_ne_of_truncated e words open' absent' redactable.reached _ _)
    · rw [Element.replaced, if_neg recognised] at tails
      obtain ⟨double, later, texts⟩ :=
        placeholder_of_unchanged e words absent' redactable.reached tails
      rw [double] at open'
      rw [List.append_assoc] at texts
      rcases List.append_eq_append_iff.mp texts with ⟨more, whole, ends⟩ | ⟨more, whole, ends⟩
      · have impossible : '>' ∈ placeholder := by
          cases more with
          | nil => cases (List.cons.inj ends).1
          | cons c more =>
              rw [whole, ← (List.cons.inj ends).1]
              simp
        exact absurd impossible (by decide)
      · have quoted : '"' ∈ part := by
          cases more with
          | nil => cases (List.cons.inj ends).1
          | cons c more =>
              rw [whole, ← (List.cons.inj ends).1]
              simp
        exact absurd quoted open'
  · obtain ⟨out, left, right⟩ := redact_documents e words documented redactable.head
      (e.quoted_end ended) (e.quoted_end redactable.value) e.after e.after
    rw [← Element.document_eq, tag, redactable.replaced] at right
    rw [← Element.document_eq, same, right, tag] at left
    have tails := (List.append_cancel_left left).symm
    have recognised : tagHasSensitiveIdentifier patterns (e.tagText v) = true := by
      by_contra unrecognised
      rw [Element.replaced, if_neg unrecognised] at tails
      obtain ⟨double, later, texts⟩ :=
        placeholder_of_unchanged e words absent' redactable.reached tails
      rw [Element.back, double, List.append_assoc] at texts
      rw [double] at absent
      exact other (split_unique absent (by decide) texts).1
    rw [Element.replaced, if_pos recognised] at tails
    refine ⟨redactable.head, ended, recognised, ?_⟩
    rw [← Bool.not_eq_false]
    intro missed
    exact assignments_ne_of_missed e words missed redactable.reached _ _ tails

/-- A page that is stored for a value tells of it exactly where the value is not removed. -/
theorem redaction_noninterfering (words : AsciiWords isWord)
    (documented : Documented isWord patterns) (absent : e.quote ∉ v) (absent' : e.quote ∉ w)
    (redactable : Redactable isWord patterns e w) :
    (Redactable isWord patterns e v →
      redactHtmlPersistenceValues patterns (e.document v) =
        redactHtmlPersistenceValues patterns (e.document w) ∧
      ∀ (response : CrawlResponse) (body : List UInt8),
        decodeUtf8 response.body = some (e.document v) → decodeUtf8 body = some (e.document w) →
          sanitizedHtmlForStorage patterns response =
            sanitizedHtmlForStorage patterns { response with body := body }) ∧
      (redactHtmlPersistenceValues patterns (e.document v) =
        redactHtmlPersistenceValues patterns (e.document w) → v ≠ placeholder →
          Redactable isWord patterns e v) := by
  constructor
  · intro redactable'
    have same := redact_eq e words documented absent absent' redactable' redactable
    refine ⟨same, fun response body first second => ?_⟩
    unfold sanitizedHtmlForStorage
    simp only [first, second, Option.bind_eq_bind, Option.bind_some, same]
  · intro same other
    exact redactable_of_redact_eq e words documented absent absent' redactable other same

/-- The field of a login form. -/
def loginField : Element where
  before := "<form>".toList
  tagName := "input".toList
  head := " name=\"password\" ".toList
  opening := "value=".toList
  quote := '"'
  tail := []
  after := "</form>".toList
  kind := .inl ⟨by decide, "value".toList, [], [], by decide, by decide,
    (fun _ absent => nomatch absent), (fun _ absent => nomatch absent)⟩
  closed := by
    intro first later split starts
    have opened : ∀ part ∈ ("<form>".toList).tails, part.head? = some '<' →
        startsTag part.tail = false := by decide
    have suffix : '<' :: later <:+ "<form>".toList := ⟨first, split.symm⟩
    have never := opened _ ((List.mem_tails _ _).mpr suffix) rfl
    rw [List.tail_cons, starts] at never
    cases never
  separated := ⟨' ', by decide, by decide⟩
  apart := ⟨' ', by decide, by decide⟩
  quoted := by decide
  ended := by decide

def asciiWord (c : Char) : Bool := c.toNat < 128 && (c.isAlphanum || c == '_')

theorem asciiWord_words : AsciiWords asciiWord := by
  intro c small
  rw [asciiWord, decide_eq_true small, Bool.true_and]

theorem loginField_redactable : ∀ v ∈ ["hunter2".toList, "letmein".toList],
    Redactable asciiWord (redactionPatterns asciiWord) loginField v := by
  intro v member
  rcases List.mem_pair.mp member with rfl | rfl
  · exact ⟨by decide, by decide, by decide +kernel, by decide +kernel⟩
  · exact ⟨by decide, by decide, by decide +kernel, by decide +kernel⟩

theorem redaction_noninterfering_loginField :
    redactHtmlPersistenceValues (redactionPatterns asciiWord)
        (loginField.document "hunter2".toList) =
      redactHtmlPersistenceValues (redactionPatterns asciiWord)
        (loginField.document "letmein".toList) :=
  ((redaction_noninterfering loginField asciiWord_words (redactionPatterns_documented asciiWord)
    (by decide) (by decide) (loginField_redactable _ (by simp))).1
      (loginField_redactable _ (by simp))).1

/-- A value with a `>` stays in the page. -/
theorem redaction_interferes :
    loginField.quote ∉ "a>b".toList ∧ loginField.quote ∉ "a>c".toList ∧
      tagHasSensitiveIdentifier (redactionPatterns asciiWord)
        (loginField.tagText "a>b".toList) = true ∧
      redactHtmlPersistenceValues (redactionPatterns asciiWord)
          (loginField.document "a>b".toList) ≠
        redactHtmlPersistenceValues (redactionPatterns asciiWord)
          (loginField.document "a>c".toList) := by
  decide +kernel

end Documents

end TechAtlas.Worker
