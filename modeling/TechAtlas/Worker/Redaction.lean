import TechAtlas.Library.Scan
import TechAtlas.Worker.Snapshot

set_option autoImplicit false

/- What the redaction of stored pages keeps of the values it is meant to remove.
The three patterns are searched for from left to right, as their crate documents. -/
namespace TechAtlas.Worker

open Library TechAtlas.Acquisition

section Patterns

variable (isWord : Char → Bool)

/-- The class `\w` on ASCII; beyond it the class is Unicode's. -/
def AsciiWords : Prop := ∀ c : Char, c.toNat < 128 → isWord c = (c.isAlphanum || c == '_')

/-- A word in lower case at the start of a text, in any case. -/
def startsIgnoringCase (word text : Text) : Bool := asciiLowercase (text.take word.length) == word

/-- `\b`. -/
def isBoundary (before after : Option Char) : Bool := before.any isWord != after.any isWord

/-- One name of a tag, behind its `<`. -/
def namedTagAt (name rest : Text) : Option (Captures × Nat) :=
  let tag := rest.take name.length
  let body := rest.drop name.length
  if startsIgnoringCase name rest && isBoundary isWord tag.getLast? body.head? &&
      body.contains '>' then
    let inner := tag ++ body.takeWhile (· != '>') ++ ['>']
    some ({ whole := '<' :: inner, groups := [("tag".toList, tag)] }, inner.length)
  else none

/-- `(?is)<(?P<tag>input|meta)\b[^>]*>`. -/
def tagAt (_before : Option Char) : Text → Option (Captures × Nat)
  | '<' :: rest => (namedTagAt isWord "input".toList rest).or (namedTagAt isWord "meta".toList rest)
  | _ => none

structure AssignedValue where
  group : Text
  inner : Text
  matched : Text

/-- The class `[^\s"'=<>]`, without the backtick. -/
def isBare (c : Char) : Bool :=
  !isWhitespace c && c != '"' && c != '\'' && c != '=' && c != '<' && c != '>' && c.toNat != 96

/-- The three alternatives for a value. A quote that is not closed matches none. -/
def assignedValue : Text → Option AssignedValue
  | '"' :: rest =>
      if rest.contains '"' then
        let inner := rest.takeWhile (· != '"')
        some { group := "double".toList, inner := inner, matched := '"' :: inner ++ ['"'] }
      else none
  | '\'' :: rest =>
      if rest.contains '\'' then
        let inner := rest.takeWhile (· != '\'')
        some { group := "single".toList, inner := inner, matched := '\'' :: inner ++ ['\''] }
      else none
  | text =>
      let inner := text.takeWhile isBare
      if inner.isEmpty then none
      else some { group := "bare".toList, inner := inner, matched := inner }

/-- `\s*=\s*` and a value: the text up to the value, and the value. -/
def assignment (text : Text) : Option (Text × AssignedValue) :=
  match text.dropWhile isWhitespace with
  | '=' :: rest =>
      (assignedValue (rest.dropWhile isWhitespace)).map fun value =>
        (text.takeWhile isWhitespace ++ '=' :: rest.takeWhile isWhitespace, value)
  | _ => none

/-- `\b{attribute}\s*=\s*` and a value. -/
def assignmentAt (attributeName : Text) (before : Option Char) (text : Text) :
    Option (Captures × Nat) :=
  if isBoundary isWord before text.head? && startsIgnoringCase attributeName text then
    (assignment (text.drop attributeName.length)).map fun (operator, value) =>
      let start := text.take attributeName.length ++ operator
      ({ whole := start ++ value.matched, groups := [("prefix".toList, start)] },
        (start ++ value.matched).length - 1)
  else none

/-- `(?P<name>[\w:-]+)\s*=\s*` and a value. -/
def attributeAt (_before : Option Char) (text : Text) : Option (Captures × Nat) :=
  let name := text.takeWhile fun c => isWord c || c == ':' || c == '-'
  if name.isEmpty then none
  else
    (assignment (text.drop name.length)).map fun (operator, value) =>
      let whole := name ++ operator ++ value.matched
      ({ whole := whole, groups := [("name".toList, name), (value.group, value.inner)] },
        whole.length - 1)

def matched (pieces : List Piece) : List Captures :=
  pieces.filterMap fun piece =>
    match piece with
    | .between _ => none
    | .matched captures => some captures

/-- The crate finds the matches of each pattern from left to right. -/
structure Documented (patterns : RedactionPatterns) : Prop where
  tag : ∀ html replacement,
    replaceAll (patterns.tag html) replacement = rewrite (tagAt isWord) replacement html
  attributes : ∀ tag, matched (patterns.attributes tag) = found (attributeAt isWord) tag
  assignment : ∀ attributeName ∈ ["value".toList, "content".toList], ∃ expression,
    patterns.assignment attributeName = some expression ∧ ∀ tag replacement,
      replaceAll (expression tag) replacement =
        rewrite (assignmentAt isWord attributeName) replacement tag

def piecesFrom (m : Matcher Char Captures) : Nat → Option Char → Text → List Piece
  | _, _, [] => []
  | n + 1, _, c :: rest => piecesFrom m n (some c) rest
  | 0, before, c :: rest =>
      match m before (c :: rest) with
      | some (captures, n) => .matched captures :: piecesFrom m n (some c) rest
      | none => .between [c] :: piecesFrom m 0 (some c) rest

/-- The patterns themselves. -/
def redactionPatterns : RedactionPatterns where
  tag := piecesFrom (tagAt isWord) 0 none
  attributes := piecesFrom (attributeAt isWord) 0 none
  assignment attributeName := some (piecesFrom (assignmentAt isWord attributeName) 0 none)

theorem replaceAll_piecesFrom (m : Matcher Char Captures) (replacement : Captures → Text) (n : Nat)
    (before : Option Char) (text : Text) :
    replaceAll (piecesFrom m n before text) replacement =
      rewriteFrom m replacement n before text := by
  induction text generalizing n before with
  | nil => cases n <;> rfl
  | cons c rest ih =>
      cases n with
      | succ n => exact ih n (some c)
      | zero =>
          rw [piecesFrom, rewriteFrom]
          cases m before (c :: rest) with
          | none => exact congrArg (c :: ·) (ih 0 (some c))
          | some result => exact congrArg (replacement result.1 ++ ·) (ih result.2 (some c))

theorem matched_piecesFrom (m : Matcher Char Captures) (n : Nat) (before : Option Char)
    (text : Text) : matched (piecesFrom m n before text) = matchesFrom m n before text := by
  induction text generalizing n before with
  | nil => cases n <;> rfl
  | cons c rest ih =>
      cases n with
      | succ n => exact ih n (some c)
      | zero =>
          rw [piecesFrom, matchesFrom]
          cases m before (c :: rest) with
          | none => exact ih 0 (some c)
          | some result => exact congrArg (result.1 :: ·) (ih result.2 (some c))

theorem redactionPatterns_documented : Documented isWord (redactionPatterns isWord) where
  tag _ _ := replaceAll_piecesFrom _ _ _ _ _
  attributes _ := matched_piecesFrom _ _ _ _
  assignment _ _ := ⟨_, rfl, fun _ _ => replaceAll_piecesFrom _ _ _ _ _⟩

end Patterns

section Assignments

variable {isWord : Char → Bool} {attributeName start value later : Text}

def isQuote (c : Char) : Bool := c == '"' || c == '\''

/-- A value between quotes, or a bare one up to the first character it cannot hold. -/
inductive IsValue (value later : Text) : Prop
  | quoted (q : Char) (inner : Text) (quote : isQuote q = true) (absent : q ∉ inner)
      (same : value = q :: inner ++ [q])
  | bare (nonempty : value ≠ []) (bare : ∀ c ∈ value, isBare c = true)
      (stops : ∀ c ∈ later.head?, isBare c = false)

/-- The name, in any case, and the equals sign with the spaces around it. -/
structure Opens (attributeName start : Text) : Prop where
  parts : ∃ name gap gap', start = name ++ gap ++ '=' :: gap' ∧
    asciiLowercase name = attributeName ∧ (∀ c ∈ gap, isWhitespace c = true) ∧
      ∀ c ∈ gap', isWhitespace c = true

theorem takeWhile_until {q : Char} {inner : Text} (absent : q ∉ inner) (later : Text) :
    (inner ++ q :: later).takeWhile (· != q) = inner := by
  rw [List.takeWhile_append_of_pos]
  · rw [List.takeWhile_cons_of_neg, List.append_nil]
    simp
  · intro c member
    rw [bne_iff_ne]
    exact fun same => absent (same ▸ member)

theorem takeWhile_white {gap : Text} (white : ∀ c ∈ gap, isWhitespace c = true) {c : Char}
    (dark : isWhitespace c = false) (later : Text) :
    (gap ++ c :: later).takeWhile isWhitespace = gap ∧
      (gap ++ c :: later).dropWhile isWhitespace = c :: later := by
  have stop : ¬isWhitespace c = true := by
    rw [dark]
    exact Bool.false_ne_true
  constructor
  · rw [List.takeWhile_append_of_pos white, List.takeWhile_cons_of_neg stop, List.append_nil]
  · rw [List.dropWhile_append_of_pos white, List.dropWhile_cons_of_neg stop]

theorem takeWhile_bare (bare : ∀ c ∈ value, isBare c = true)
    (stops : ∀ c ∈ later.head?, isBare c = false) :
    (value ++ later).takeWhile isBare = value := by
  rw [List.takeWhile_append_of_pos bare]
  cases later with
  | nil => exact List.append_nil value
  | cons c rest =>
      have stop : ¬isBare c = true := by
        rw [stops c rfl]
        exact Bool.false_ne_true
      rw [List.takeWhile_cons_of_neg stop, List.append_nil]

theorem assignedValue_bare {c : Char} {rest : Text} (plain : isQuote c = false) :
    assignedValue (c :: rest) =
      if ((c :: rest).takeWhile isBare).isEmpty then none
      else some {
        group := "bare".toList
        inner := (c :: rest).takeWhile isBare
        matched := (c :: rest).takeWhile isBare } := by
  rw [isQuote, Bool.or_eq_false_iff, beq_eq_false_iff_ne, beq_eq_false_iff_ne] at plain
  unfold assignedValue
  split
  · exact absurd (List.cons.inj ‹_›).1 plain.1
  · exact absurd (List.cons.inj ‹_›).1 plain.2
  · rfl

theorem assignedValue_quoted {q : Char} (quote : isQuote q = true) (rest : Text) :
    (assignedValue (q :: rest)).map AssignedValue.matched =
      if rest.contains q then some (q :: rest.takeWhile (· != q) ++ [q]) else none := by
  rw [isQuote, Bool.or_eq_true, beq_iff_eq, beq_iff_eq] at quote
  rcases quote with rfl | rfl
  · change (if rest.contains '"' then _ else none).map _ = _
    split <;> rfl
  · change (if rest.contains '\'' then _ else none).map _ = _
    split <;> rfl

theorem isBare_of_isQuote {c : Char} (quote : isQuote c = true) : isBare c = false := by
  rw [isQuote, Bool.or_eq_true, beq_iff_eq, beq_iff_eq] at quote
  rcases quote with rfl | rfl <;> decide

theorem assignedValue_of_isValue (isValue : IsValue value later) :
    (assignedValue (value ++ later)).map AssignedValue.matched = some value := by
  cases isValue with
  | quoted q inner quote absent same =>
      subst same
      have split : q :: inner ++ [q] ++ later = q :: (inner ++ q :: later) := by simp
      rw [split, assignedValue_quoted quote, takeWhile_until absent, if_pos]
      simp
  | bare nonempty bare stops =>
      cases value with
      | nil => exact absurd rfl nonempty
      | cons c rest =>
          have plain : isQuote c = false := by
            by_contra quote
            rw [Bool.not_eq_false] at quote
            have own := bare c List.mem_cons_self
            rw [isBare_of_isQuote quote] at own
            cases own
          have whole := takeWhile_bare bare stops
          rw [List.cons_append] at whole ⊢
          rw [assignedValue_bare plain, whole]
          rfl

theorem isValue_of_assignedValue {text : Text} {found : AssignedValue}
    (success : assignedValue text = some found) :
    ∃ later, text = found.matched ++ later ∧ IsValue found.matched later := by
  have matched := congrArg (Option.map AssignedValue.matched) success
  cases text with
  | nil => cases success
  | cons c rest =>
      by_cases quote : isQuote c = true
      · rw [assignedValue_quoted quote] at matched
        split at matched
        next closed =>
          obtain ⟨inner, later, rfl, absent⟩ :=
            List.eq_append_cons_of_mem (List.contains_iff_mem.mp closed)
          rw [takeWhile_until absent] at matched
          have same : found.matched = c :: inner ++ [c] := (Option.some.inj matched).symm
          exact ⟨later, by rw [same]; simp, .quoted c inner quote absent same⟩
        next => cases matched
      · rw [Bool.not_eq_true] at quote
        rw [assignedValue_bare quote] at success
        split at success
        · cases success
        next present =>
          cases success
          refine ⟨(c :: rest).dropWhile isBare, List.takeWhile_append_dropWhile.symm, ?_⟩
          refine .bare (by simpa using present) (fun d member => List.mem_takeWhile_imp member) ?_
          intro d head
          have stops := List.head?_dropWhile_not isBare (c :: rest)
          rw [Option.mem_def.mp head] at stops
          exact stops

theorem isWhitespace_of_isQuote {c : Char} (quote : isQuote c = true) :
    isWhitespace c = false := by
  rw [isQuote, Bool.or_eq_true, beq_iff_eq, beq_iff_eq] at quote
  rcases quote with rfl | rfl <;> decide

/-- A value starts with a character that is no space. -/
theorem IsValue.exists_cons (isValue : IsValue value later) :
    ∃ c rest, value = c :: rest ∧ isWhitespace c = false := by
  cases isValue with
  | quoted q inner quote absent same =>
      exact ⟨q, inner ++ [q], same, isWhitespace_of_isQuote quote⟩
  | bare nonempty bare stops =>
      cases value with
      | nil => exact absurd rfl nonempty
      | cons c rest =>
          refine ⟨c, rest, rfl, ?_⟩
          have own := bare c List.mem_cons_self
          simp only [isBare, Bool.and_eq_true, Bool.not_eq_true'] at own
          exact own.1.1.1.1.1.1

theorem assignment_of_white {gap gap' : Text} (white : ∀ c ∈ gap, isWhitespace c = true)
    (white' : ∀ c ∈ gap', isWhitespace c = true) {c : Char} (dark : isWhitespace c = false) :
    assignment (gap ++ '=' :: (gap' ++ c :: later)) =
      (assignedValue (c :: later)).map fun value => (gap ++ '=' :: gap', value) := by
  have outer := takeWhile_white white (c := '=') (by decide) (gap' ++ c :: later)
  have inner := takeWhile_white white' dark later
  rw [assignment, outer.2, outer.1]
  change (assignedValue ((gap' ++ c :: later).dropWhile isWhitespace)).map
    (fun value => (gap ++ '=' :: (gap' ++ c :: later).takeWhile isWhitespace, value)) = _
  rw [inner.1, inner.2]

/-- Behind its opening the pattern looks for a value. -/
theorem assignmentAt_opens {before : Option Char} (opens : Opens attributeName start)
    (boundary : isBoundary isWord before start.head? = true) {c : Char}
    (dark : isWhitespace c = false) (rest : Text) :
    assignmentAt isWord attributeName before (start ++ c :: rest) =
      (assignedValue (c :: rest)).map fun value =>
        ({ whole := start ++ value.matched, groups := [("prefix".toList, start)] },
          (start ++ value.matched).length - 1) := by
  obtain ⟨name, gap, gap', rfl, lower, white, white'⟩ := opens.parts
  have size : attributeName.length = name.length := by
    rw [← lower, asciiLowercase, List.length_map]
  have text : name ++ gap ++ '=' :: gap' ++ c :: rest =
      name ++ (gap ++ '=' :: (gap' ++ c :: rest)) := by simp
  have head : (name ++ gap ++ '=' :: gap' ++ c :: rest).head? =
      (name ++ gap ++ '=' :: gap').head? := by
    cases name <;> cases gap <;> rfl
  have starts : startsIgnoringCase attributeName
      (name ++ (gap ++ '=' :: (gap' ++ c :: rest))) = true := by
    rw [startsIgnoringCase, size, List.take_left, lower, beq_self_eq_true]
  rw [assignmentAt, head, boundary, text, starts, size, List.drop_left, List.take_left,
    Bool.and_true, if_pos rfl, assignment_of_white white white' dark, Option.map_map]
  simp only [Function.comp_def, List.append_assoc]

/-- What the pattern finds: the opening is captured, and the match ends with the value. -/
theorem assignmentAt_of_opens {before : Option Char} (opens : Opens attributeName start)
    (boundary : isBoundary isWord before start.head? = true) (isValue : IsValue value later) :
    assignmentAt isWord attributeName before (start ++ value ++ later) =
      some ({ whole := start ++ value, groups := [("prefix".toList, start)] },
        (start ++ value).length - 1) := by
  obtain ⟨found, success, same⟩ := Option.map_eq_some_iff.mp (assignedValue_of_isValue isValue)
  obtain ⟨c, rest, rfl, dark⟩ := isValue.exists_cons
  rw [List.cons_append] at success
  rw [List.append_assoc, List.cons_append, assignmentAt_opens opens boundary dark, success,
    Option.map_some, same]

/-- A quote that is not closed is no value. -/
theorem assignmentAt_unclosed {before : Option Char} (opens : Opens attributeName start)
    (boundary : isBoundary isWord before start.head? = true) {q : Char}
    (quote : isQuote q = true) {rest : Text} (unclosed : q ∉ rest) :
    assignmentAt isWord attributeName before (start ++ q :: rest) = none := by
  have none : assignedValue (q :: rest) = none := by
    rw [← Option.map_eq_none_iff (f := AssignedValue.matched), assignedValue_quoted quote, if_neg]
    rwa [List.contains_iff_mem]
  rw [assignmentAt_opens opens boundary (isWhitespace_of_isQuote quote), none]
  rfl

theorem exists_opens_of_assignmentAt {before : Option Char} {text : Text} {captures : Captures}
    {n : Nat} (success : assignmentAt isWord attributeName before text = some (captures, n)) :
    ∃ start value later, text = start ++ value ++ later ∧ Opens attributeName start ∧
      isBoundary isWord before start.head? = true ∧ IsValue value later ∧
      captures.name "prefix" = some start ∧ n = (start ++ value).length - 1 := by
  unfold assignmentAt at success
  split at success
  next condition =>
    rw [Bool.and_eq_true] at condition
    obtain ⟨boundary, starts⟩ := condition
    obtain ⟨⟨operator, found⟩, assigned, same⟩ := Option.map_eq_some_iff.mp success
    cases same
    unfold assignment at assigned
    split at assigned
    next rest equals =>
      obtain ⟨value, valued, same⟩ := Option.map_eq_some_iff.mp assigned
      cases same
      obtain ⟨later, split, isValue⟩ := isValue_of_assignedValue valued
      have outer := List.takeWhile_append_dropWhile (p := isWhitespace)
        (l := text.drop attributeName.length)
      have inner := List.takeWhile_append_dropWhile (p := isWhitespace) (l := rest)
      rw [equals] at outer
      rw [split] at inner
      have whole : text = text.take attributeName.length ++
          ((text.drop attributeName.length).takeWhile isWhitespace ++
            '=' :: rest.takeWhile isWhitespace) ++ found.matched ++ later := by
        conv_lhs => rw [← List.take_append_drop attributeName.length text, ← outer, ← inner]
        simp only [List.append_assoc, List.cons_append]
      refine ⟨_, found.matched, later, whole, ⟨text.take attributeName.length, _, _,
        (List.append_assoc _ _ _).symm, ?_, ?_, ?_⟩, ?_, isValue, rfl, rfl⟩
      · exact beq_iff_eq.mp starts
      · exact fun c member => List.mem_takeWhile_imp member
      · exact fun c member => List.mem_takeWhile_imp member
      · have headed : text.head? = (text.take attributeName.length ++
            ((text.drop attributeName.length).takeWhile isWhitespace ++
              '=' :: rest.takeWhile isWhitespace)).head? := by
          conv_lhs => rw [whole]
          rw [List.append_assoc, List.head?_append_of_ne_nil]
          simp
        rw [← headed]
        exact boundary
    next => cases assigned
  next => cases success

theorem opens_ne_nil (opens : Opens attributeName start) : start ≠ [] := by
  obtain ⟨name, gap, gap', rfl, _⟩ := opens.parts
  simp

/-- A match that ends before its text does is found whatever follows. -/
theorem assignmentAt_local (isWord : Char → Bool) (attributeName : Text) :
    Local (assignmentAt isWord attributeName) := by
  intro before text later later' captures n success short
  obtain ⟨start, value, remaining, split, opens, boundary, isValue, _, size⟩ :=
    exists_opens_of_assignmentAt success
  have positive : 0 < (start ++ value).length :=
    List.length_pos_iff.mpr fun nil => opens_ne_nil opens (List.append_eq_nil_iff.mp nil).1
  have within : (start ++ value).length < text.length := by omega
  obtain ⟨others, same, rfl⟩ : ∃ others, text = start ++ value ++ others ∧
      remaining = others ++ later := by
    rcases List.append_eq_append_iff.mp split with ⟨others, same, sameLater⟩ |
      ⟨others, same, sameLater⟩
    · have longer : (start ++ value).length = text.length + others.length := by
        rw [same, List.length_append]
      omega
    · exact ⟨others, same, sameLater⟩
  subst same
  have others_ne : others ≠ [] := by
    rintro rfl
    simp at within
  have isValue' : IsValue value (others ++ later') := by
    cases isValue with
    | quoted q inner quote absent same => exact .quoted q inner quote absent same
    | bare nonempty bare stops =>
        refine .bare nonempty bare ?_
        rw [List.head?_append_of_ne_nil _ others_ne] at stops ⊢
        exact stops
  have found := assignmentAt_of_opens opens boundary isValue
  have found' := assignmentAt_of_opens opens boundary isValue'
  rw [List.append_assoc (start ++ value)] at success ⊢
  rw [found']
  rw [found] at success
  exact success

end Assignments

section Elements

/-- The space that HTML puts between attributes, or the slash. -/
def isSeparator (c : Char) : Bool :=
  c == ' ' || c == '\t' || c == '\n' || c.toNat == 12 || c == '\r' || c == '/'

/-- The start of a tag of the pattern, in any case. -/
def startsTag (text : Text) : Bool :=
  startsIgnoringCase "input".toList text || startsIgnoringCase "meta".toList text

/-- An `input` element with a quoted `value`, or a `meta` element with a quoted
`content`, in its document. The opening is the attribute up to the quote, and the
tail what is between the closing quote and the next `>`. No earlier tag is open. -/
structure Element where
  before : Text
  tagName : Text
  head : Text
  opening : Text
  quote : Char
  tail : Text
  after : Text
  kind : asciiLowercase tagName = "input".toList ∧ Opens "value".toList opening ∨
    asciiLowercase tagName = "meta".toList ∧ Opens "content".toList opening
  closed : ∀ first later, before = first ++ '<' :: later → startsTag later = true → '>' ∈ later
  separated : ∃ c ∈ head.head?, isSeparator c = true
  apart : ∃ c ∈ head.getLast?, (isSeparator c || isQuote c) = true
  quoted : isQuote quote = true
  ended : '>' ∉ tail

def Element.attributeName (e : Element) : Text :=
  if asciiLowercase e.tagName = "input".toList then "value".toList else "content".toList

/-- The part of the tag before the attribute. -/
def Element.front (e : Element) : Text := '<' :: (e.tagName ++ e.head)

/-- What follows the opening quote, up to the end of the tag. -/
def Element.back (e : Element) (value : Text) : Text := value ++ e.quote :: (e.tail ++ ['>'])

def Element.tagText (e : Element) (value : Text) : Text :=
  e.front ++ (e.opening ++ [e.quote] ++ e.back value)

/-- The document with the given value of the attribute. -/
def Element.document (e : Element) (value : Text) : Text :=
  e.before ++ (e.tagText value ++ e.after)

/-- The condition under which a value is removed: nothing ends the tag early, the
tag is recognised, and the search for assignments comes to the attribute. -/
structure Redactable (isWord : Char → Bool) (patterns : RedactionPatterns) (e : Element)
    (v : Text) : Prop where
  head : '>' ∉ e.head
  value : '>' ∉ v
  recognised : tagHasSensitiveIdentifier patterns (e.tagText v) = true
  reached : reaches (assignmentAt isWord e.attributeName) 0 none (e.tagText v) e.front.length = true

def placeholder : Text := "[redacted]".toList

/-- What replaces an assignment. -/
def assignmentReplacement (captures : Captures) : Text :=
  (captures.name "prefix").getD [] ++ "\"[redacted]\"".toList

def tagReplacement (patterns : RedactionPatterns) (captures : Captures) : Text :=
  let tag := asciiLowercase ((captures.name "tag").getD [])
  if tagHasSensitiveIdentifier patterns captures.whole then
    redactTagAttribute patterns captures.whole
      (if tag = "input".toList then "value".toList else "content".toList)
  else captures.whole

end Elements

section Tags

variable {isWord : Char → Bool} {patterns : RedactionPatterns} {e : Element} {v w : Text}

theorem isWord_of_lower (words : AsciiWords isWord) {c : Char} (low : 97 ≤ c.toLower.toNat)
    (high : c.toLower.toNat ≤ 122) : isWord c = true := by
  by_cases upper : c.isUpper = true
  · have bounds := isUpper_iff.mp upper
    have letter : c.isAlphanum = (c.isUpper || c.isLower || c.isDigit) := rfl
    rw [words c (by omega), letter, upper]
    rfl
  · rw [Bool.not_eq_true] at upper
    rw [toLower_of_not_isUpper upper] at low high
    have lower : c.isLower = true := isLower_iff.mpr ⟨low, high⟩
    have letter : c.isAlphanum = (c.isUpper || c.isLower || c.isDigit) := rfl
    rw [words c (by omega), letter, lower, Bool.or_true]
    rfl

theorem isWord_of_separator (words : AsciiWords isWord) {c : Char}
    (separator : (isSeparator c || isQuote c) = true) : isWord c = false := by
  simp only [isSeparator, isQuote, Bool.or_eq_true, beq_iff_eq] at separator
  have small : c.toNat < 128 := by
    rcases separator with (((((rfl | rfl) | rfl) | feed) | rfl) | rfl) | rfl | rfl <;>
      first | decide | omega
  rw [words c small]
  rcases separator with (((((rfl | rfl) | rfl) | feed) | rfl) | rfl) | rfl | rfl
  all_goals first | decide | skip
  have same : c = Char.ofNat 12 := by
    rw [← feed, Char.ofNat_toNat]
  rw [same]
  decide

theorem isWord_last (words : AsciiWords isWord) {name tag : Text} (lower : asciiLowercase tag = name)
    (letters : ∀ c ∈ name, 97 ≤ c.toNat ∧ c.toNat ≤ 122) (nonempty : name ≠ []) :
    tag.getLast?.any isWord = true := by
  have present : tag ≠ [] := by
    rintro rfl
    exact nonempty lower.symm
  rw [List.getLast?_eq_some_getLast present, Option.any_some]
  have member : (tag.getLast present).toLower ∈ name := by
    rw [← lower]
    exact List.mem_map_of_mem (List.getLast_mem present)
  exact isWord_of_lower words (letters _ member).1 (letters _ member).2

theorem namedTagAt_of_boundary {name tag inner : Text} (lower : asciiLowercase tag = name)
    (boundary : isBoundary isWord tag.getLast? (inner ++ ['>']).head? = true) (absent : '>' ∉ inner)
    (later : Text) : namedTagAt isWord name (tag ++ (inner ++ '>' :: later)) =
      some ({ whole := '<' :: (tag ++ inner ++ ['>']), groups := [("tag".toList, tag)] },
        (tag ++ inner ++ ['>']).length) := by
  have size : name.length = tag.length := by
    rw [← lower, asciiLowercase, List.length_map]
  have starts : startsIgnoringCase name (tag ++ (inner ++ '>' :: later)) = true := by
    rw [startsIgnoringCase, size, List.take_left, lower, beq_self_eq_true]
  have head : (inner ++ '>' :: later).head? = (inner ++ ['>']).head? := by
    cases inner <;> rfl
  have closed : (inner ++ '>' :: later).contains '>' = true := by simp
  rw [namedTagAt]
  dsimp only
  rw [size, List.take_left, List.drop_left, starts, head, boundary, closed, takeWhile_until absent]
  rfl

theorem exists_of_namedTagAt {name rest : Text} {captures : Captures} {n : Nat}
    (success : namedTagAt isWord name rest = some (captures, n)) :
    ∃ tag inner later, rest = tag ++ (inner ++ '>' :: later) ∧ asciiLowercase tag = name ∧
      '>' ∉ inner ∧ isBoundary isWord tag.getLast? (inner ++ ['>']).head? = true ∧
      captures = { whole := '<' :: (tag ++ inner ++ ['>']), groups := [("tag".toList, tag)] } ∧
      n = (tag ++ inner ++ ['>']).length := by
  rw [namedTagAt] at success
  dsimp only at success
  split at success
  next condition =>
    rw [Bool.and_eq_true, Bool.and_eq_true] at condition
    obtain ⟨⟨starts, boundary⟩, closed⟩ := condition
    obtain ⟨inner, later, split, absent⟩ :=
      List.eq_append_cons_of_mem (List.contains_iff_mem.mp closed)
    have head : (inner ++ '>' :: later).head? = (inner ++ ['>']).head? := by
      cases inner <;> rfl
    rw [split, takeWhile_until absent] at success
    rw [split, head] at boundary
    obtain ⟨same, size⟩ := Prod.mk.inj (Option.some.inj success)
    refine ⟨rest.take name.length, inner, later, ?_, beq_iff_eq.mp starts, absent, boundary,
      same.symm, size.symm⟩
    rw [← split, List.take_append_drop]
  next => cases success

theorem exists_cons_of_starts {d : Char} {word text : Text}
    (starts : startsIgnoringCase (d :: word) text = true) :
    ∃ c rest, text = c :: rest ∧ c.toLower = d ∧ startsIgnoringCase word rest = true := by
  have same := beq_iff_eq.mp starts
  cases text with
  | nil => cases same
  | cons c rest =>
      rw [List.length_cons, List.take_succ_cons, asciiLowercase, List.map_cons] at same
      obtain ⟨first, others⟩ := List.cons.inj same
      exact ⟨c, rest, rfl, first, beq_iff_eq.mpr others⟩

/-- A word cannot start before a `<` and end behind it. -/
theorem starts_of_append {word text : Text} (later : Text) (letters : '<' ∉ word)
    (starts : startsIgnoringCase word (text ++ '<' :: later) = true) :
    startsIgnoringCase word text = true := by
  induction word generalizing text with
  | nil => rfl
  | cons d word ih =>
      obtain ⟨c, rest, split, lower, others⟩ := exists_cons_of_starts starts
      cases text with
      | nil =>
          obtain ⟨rfl, _⟩ := List.cons.inj split
          have same : d = '<' := lower.symm.trans (by decide)
          exact absurd (same ▸ List.mem_cons_self) letters
      | cons first text =>
          obtain ⟨rfl, tails⟩ := List.cons.inj split
          rw [← tails] at others
          have more := ih (fun member => letters (List.mem_cons_of_mem d member)) others
          rw [startsIgnoringCase, List.length_cons, List.take_succ_cons, beq_iff_eq,
            asciiLowercase, List.map_cons, lower]
          exact congrArg (d :: ·) (beq_iff_eq.mp more)

theorem namedTagAt_of_not {name rest : Text} (other : startsIgnoringCase name rest = false) :
    namedTagAt isWord name rest = none := by
  rw [namedTagAt]
  dsimp only
  rw [other]
  rfl

theorem startsInput_of_meta {tag rest : Text} (lower : asciiLowercase tag = "meta".toList) :
    startsIgnoringCase "input".toList (tag ++ rest) = false := by
  by_contra starts
  rw [Bool.not_eq_false] at starts
  obtain ⟨c, others, split, first, _⟩ := exists_cons_of_starts (d := 'i') starts
  cases tag with
  | nil => cases lower
  | cons d tag =>
      have second : d.toLower = 'm' := (List.cons.inj lower).1
      rw [← (List.cons.inj split).1, second] at first
      cases first

theorem tagAt_input {before : Option Char} {tag inner : Text}
    (lower : asciiLowercase tag = "input".toList ∨ asciiLowercase tag = "meta".toList)
    (boundary : isBoundary isWord tag.getLast? (inner ++ ['>']).head? = true) (absent : '>' ∉ inner)
    (later : Text) : tagAt isWord before ('<' :: (tag ++ (inner ++ '>' :: later))) =
      some ({ whole := '<' :: (tag ++ inner ++ ['>']), groups := [("tag".toList, tag)] },
        (tag ++ inner ++ ['>']).length) := by
  change (namedTagAt isWord "input".toList (tag ++ (inner ++ '>' :: later))).or
    (namedTagAt isWord "meta".toList (tag ++ (inner ++ '>' :: later))) = _
  rcases lower with lower | lower
  · rw [namedTagAt_of_boundary lower boundary absent]
    rfl
  · rw [namedTagAt_of_not (startsInput_of_meta lower),
      namedTagAt_of_boundary lower boundary absent]
    rfl

theorem exists_of_tagAt {before : Option Char} {text : Text} {captures : Captures} {n : Nat}
    (success : tagAt isWord before text = some (captures, n)) :
    ∃ tag inner later, text = '<' :: (tag ++ (inner ++ '>' :: later)) ∧
      (asciiLowercase tag = "input".toList ∨ asciiLowercase tag = "meta".toList) ∧ '>' ∉ inner ∧
      isBoundary isWord tag.getLast? (inner ++ ['>']).head? = true ∧
      captures = { whole := '<' :: (tag ++ inner ++ ['>']), groups := [("tag".toList, tag)] } ∧
      n = (tag ++ inner ++ ['>']).length := by
  unfold tagAt at success
  split at success
  · rcases Option.or_eq_some_iff.mp success with input | ⟨_, named⟩
    · obtain ⟨tag, inner, later, rfl, lower, others⟩ := exists_of_namedTagAt input
      exact ⟨tag, inner, later, rfl, .inl lower, others⟩
    · obtain ⟨tag, inner, later, rfl, lower, others⟩ := exists_of_namedTagAt named
      exact ⟨tag, inner, later, rfl, .inr lower, others⟩
  · cases success

theorem tagAt_local (isWord : Char → Bool) : Local (tagAt isWord) := by
  intro before text later later' captures n success short
  obtain ⟨tag, inner, remaining, split, lower, absent, boundary, rfl, rfl⟩ :=
    exists_of_tagAt success
  have whole : text ++ later = '<' :: (tag ++ inner ++ ['>']) ++ remaining := by
    rw [split]
    simp
  rcases List.append_eq_append_iff.mp whole with ⟨others, same, _⟩ | ⟨others, same, _⟩
  · have longer := congrArg List.length same
    rw [List.length_append, List.length_cons] at longer
    omega
  · have regroup : text ++ later' = '<' :: (tag ++ (inner ++ '>' :: (others ++ later'))) := by
      rw [same]
      simp
    rw [regroup]
    exact tagAt_input lower boundary absent (others ++ later')

/-- A tag that starts in the text before the element ends in it. -/
theorem tagAt_ends (e : Element) (later : Text) : ∀ first c rest, e.before = first ++ c :: rest →
    ∀ captures k, tagAt isWord (lastOf none first) (c :: (rest ++ '<' :: later)) =
      some (captures, k) → k ≤ rest.length := by
  intro first c rest split captures k success
  obtain ⟨tag, inner, remaining, same, lower, absent, _, _, rfl⟩ := exists_of_tagAt success
  obtain ⟨rfl, tails⟩ := List.cons.inj same
  have plain : ∀ d ∈ tag, d ≠ '<' ∧ d ≠ '>' := by
    intro d member
    have lowered : d.toLower ∈ asciiLowercase tag := List.mem_map_of_mem member
    have letter : d.toLower ∈ "input".toList ∨ d.toLower ∈ "meta".toList := by
      rcases lower with same | same
      · exact .inl (same ▸ lowered)
      · exact .inr (same ▸ lowered)
    constructor
    · rintro rfl
      exact absurd letter (by decide)
    · rintro rfl
      exact absurd letter (by decide)
  have opened : startsTag rest = true := by
    have starts : ∀ name, '<' ∉ name → asciiLowercase tag = name →
        startsIgnoringCase name rest = true := by
      intro name letters same
      apply starts_of_append later letters
      have size : name.length = tag.length := by
        rw [← same, asciiLowercase, List.length_map]
      rw [tails, startsIgnoringCase, size, List.take_left, same, beq_self_eq_true]
    rw [startsTag, Bool.or_eq_true]
    exact lower.imp (starts _ (by decide)) (starts _ (by decide))
  obtain ⟨early, others, rfl, first'⟩ :=
    List.eq_append_cons_of_mem (e.closed first rest split opened)
  -- both `tag ++ inner` and `early` end where the first `>` is
  have same : tag ++ inner = early := by
    have left : '>' ∉ tag ++ inner := by
      intro member
      rcases List.mem_append.mp member with inTag | inInner
      · exact (plain _ inTag).2 rfl
      · exact absent inInner
    have both : early ++ '>' :: (others ++ '<' :: later) = tag ++ inner ++ '>' :: remaining := by
      rw [List.append_assoc tag, ← tails, List.append_assoc]
      rfl
    have taken := congrArg (List.takeWhile (· != '>')) both
    rw [takeWhile_until first', takeWhile_until left] at taken
    exact taken.symm
  rw [same, List.length_append, List.length_append]
  exact Nat.add_le_add_left (Nat.succ_le_succ (Nat.zero_le _)) _

/-- Up to the element a document is rewritten without regard to it. -/
theorem rewrite_before (isWord : Char → Bool) (e : Element) (replacement : Captures → Text)
    (later later' : Text) : ∃ out,
      rewrite (tagAt isWord) replacement (e.before ++ '<' :: later) =
        out ++ rewriteFrom (tagAt isWord) replacement 0 (lastOf none e.before) ('<' :: later) ∧
      rewrite (tagAt isWord) replacement (e.before ++ '<' :: later') =
        out ++ rewriteFrom (tagAt isWord) replacement 0 (lastOf none e.before) ('<' :: later') := by
  have reached : reaches (tagAt isWord) 0 none (e.before ++ ([('<' : Char)] ++ later'))
      e.before.length = true :=
    reaches_of_within (Nat.zero_le _) (tagAt_ends e later')
  obtain ⟨first, second, out, split, left, right, ended | ⟨nonempty, _, _, captures, k, found, more⟩⟩ :=
    rewriteFrom_agree (tagAt_local isWord) replacement later (List.cons_ne_nil _ _) reached
  · rw [ended.1, List.append_nil] at split
    rw [ended.1, ← split] at left right
    exact ⟨out, left, right⟩
  · cases second with
    | nil => exact absurd rfl nonempty
    | cons c rest =>
        have within := tagAt_ends e later first c rest split captures k found
        rw [List.length_cons] at more
        omega

/-- The element is replaced as one match, where no `>` ends it early. -/
theorem rewrite_element (words : AsciiWords isWord) (e : Element) (replacement : Captures → Text)
    (before : Option Char) {inner : Text} (separated : ∃ c ∈ inner.head?, isSeparator c = true)
    (absent : '>' ∉ inner) (later : Text) :
    rewriteFrom (tagAt isWord) replacement 0 before
        ('<' :: (e.tagName ++ (inner ++ '>' :: later))) =
      replacement { whole := '<' :: (e.tagName ++ inner ++ ['>']),
                    groups := [("tag".toList, e.tagName)] } ++
        rewriteFrom (tagAt isWord) replacement 0 (some '>') later := by
  obtain ⟨c, first, separator⟩ := separated
  have lower := e.kind.imp And.left And.left
  have boundary : isBoundary isWord e.tagName.getLast? (inner ++ ['>']).head? = true := by
    have quiet : isWord c = false := isWord_of_separator words (by rw [separator, Bool.true_or])
    have last : e.tagName.getLast?.any isWord = true := by
      rcases lower with lower | lower
      · exact isWord_last words lower (forall_mem_of_all (by decide)) (by decide)
      · exact isWord_last words lower (forall_mem_of_all (by decide)) (by decide)
    rw [isBoundary, last, List.head?_append, Option.mem_def.mp first]
    simp [quiet]
  rw [rewriteFrom_of_some (tagAt_input lower boundary absent later)]
  have skipped := rewriteFrom_skip (tagAt isWord) replacement (some '<')
    (e.tagName ++ inner ++ ['>']) later
  rw [lastOf_concat] at skipped
  rw [← skipped]
  simp only [List.append_assoc, List.cons_append, List.nil_append]

end Tags

end TechAtlas.Worker
