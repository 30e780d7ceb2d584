import TechAtlas.Store.Domains

set_option autoImplicit false

/- Parsing an import document: the reader of the `csv` crate, which ends a record
at every terminator and skips the empty ones, and a scan of the document's lines
that is to find the empty ones first. -/
namespace TechAtlas.Domains

open Library TechAtlas.Store

section Records

def lineFeed : UInt8 := 0x0a
def carriageReturn : UInt8 := 0x0d
def quote : UInt8 := 0x22
def comma : UInt8 := 0x2c

def byteOrderMark : List UInt8 := [0xef, 0xbb, 0xbf]

/-- Where a reader of quoted fields stands. `afterReturn` is the start of a record
behind a carriage return, whose line feed is still to come. -/
inductive FieldState
  | startField
  | afterReturn
  | inField
  | inQuoted
  | afterQuote
  deriving DecidableEq, Repr

/-- The state behind a byte of a record. A quote opens a quoted field only as the
first byte of it, and two quotes within it stand for one. -/
def FieldState.next (state : FieldState) (byte : UInt8) : FieldState :=
  match state with
  | .inQuoted => if byte = quote then .afterQuote else .inQuoted
  | .inField => if byte = comma then .startField else .inField
  | .startField | .afterReturn | .afterQuote =>
      if byte = quote then .inQuoted else if byte = comma then .startField else .inField

/-- The records of a document, the empty ones included: CR, LF and CR LF end a
record outside quoted fields. `current` holds the record so far, last byte first. -/
def splitRecords (state : FieldState) (current : List UInt8) : List UInt8 → List (List UInt8)
  | [] => if current.isEmpty then [] else [current.reverse]
  | byte :: rest =>
      if state = .inQuoted then splitRecords (state.next byte) (byte :: current) rest
      else if byte = lineFeed then
        if state = .afterReturn then splitRecords .startField [] rest
        else current.reverse :: splitRecords .startField [] rest
      else if byte = carriageReturn then current.reverse :: splitRecords .afterReturn [] rest
      else splitRecords (state.next byte) (byte :: current) rest

def stripByteOrderMark (input : List UInt8) : List UInt8 :=
  if byteOrderMark.isPrefixOf input then input.drop 3 else input

def documentRecords (input : List UInt8) : List (List UInt8) :=
  splitRecords .startField [] (stripByteOrderMark input)

/-- The header is the first record that is not empty. -/
def dataRecords (input : List UInt8) : List (List UInt8) :=
  ((documentRecords input).dropWhile List.isEmpty).tail

def spaced (byte : UInt8) : UInt8 :=
  if byte = lineFeed ∨ byte = carriageReturn then 0x20 else byte

def spacedChar (c : Char) : Char := if c = '\n' ∨ c = '\r' then ' ' else c

/-- The line breaks within quoted fields replaced by spaces. -/
def unbroken (state : FieldState) : List UInt8 → List UInt8
  | [] => []
  | byte :: rest =>
      if state = .inQuoted then spaced byte :: unbroken (state.next byte) rest
      else if byte = lineFeed then byte :: unbroken .startField rest
      else if byte = carriageReturn then byte :: unbroken .afterReturn rest
      else byte :: unbroken (state.next byte) rest

def unbrokenDocument (input : List UInt8) : List UInt8 :=
  if byteOrderMark.isPrefixOf input then byteOrderMark ++ unbroken .startField (input.drop 3)
  else unbroken .startField input

end Records

section Reader

/-- The `csv` crate: the fields of one record, and what a reader that is not
flexible yields for a document, its header first. -/
structure CsvCrate where
  fields : List UInt8 → Except Unit (List Text)
  read : List UInt8 → List (Except Unit (List Text))

/-- Every record has as many fields as the first one. -/
def sameLength (header record : Except Unit (List Text)) : Except Unit (List Text) := do
  let header ← header
  let fields ← record
  require (fields.length == header.length) ()
  .ok fields

def readRecords (fields : List UInt8 → Except Unit (List Text)) :
    List (List UInt8) → List (Except Unit (List Text))
  | [] => []
  | header :: rest => fields header :: rest.map fun record => sameLength (fields header)
      (fields record)

def presentRecords (input : List UInt8) : List (List UInt8) :=
  (documentRecords input).filter fun record => !record.isEmpty

/-- The reader accepts CR, LF and CR LF as terminators, skips empty records and
supports quoted fields: a line break within one is a character of the field. -/
structure CsvCrate.Lawful (crate : CsvCrate) : Prop where
  read : ∀ input, crate.read input = readRecords crate.fields (presentRecords input)
  quoted : ∀ input, ∀ record ∈ documentRecords input,
    crate.fields (record.map spaced) =
      (crate.fields record).map (List.map (List.map spacedChar))

end Reader

section Parse

inductive CsvImportParseError
  | missingDomainHeader
  | unsupportedColumns
  | malformedCsv
  | tooManyRows
  deriving DecidableEq, Repr

def CsvImportParseError.message : CsvImportParseError → Text
  | .missingDomainHeader => "CSV must have a single domain header".toList
  | .unsupportedColumns => "CSV contains unsupported columns".toList
  | .malformedCsv => "CSV document is malformed".toList
  | .tooManyRows => "CSV contains too many rows".toList

/-- `split_inclusive` at line feeds. -/
def splitInclusive (current : List UInt8) : List UInt8 → List (List UInt8)
  | [] => if current.isEmpty then [] else [current.reverse]
  | byte :: rest =>
      if byte = lineFeed then (byte :: current).reverse :: splitInclusive [] rest
      else splitInclusive (byte :: current) rest

def stripSuffix (byte : UInt8) (line : List UInt8) : List UInt8 :=
  if line.getLast? = some byte then line.dropLast else line

def containsBlankDataLine (input : List UInt8) : Bool :=
  (splitInclusive [] input).tail.any fun line =>
    (stripSuffix carriageReturn (stripSuffix lineFeed line)).isEmpty

def isDomainHeader (header : Text) : Bool :=
  asciiLowercase ((trim header).dropWhile (· == '\ufeff')) == "domain".toList

/-- The loop over the records; the number of a row has to fit `u32`. -/
def rowsFrom (index : Nat) :
    List (Except Unit (List Text)) → Except CsvImportParseError (List CsvImportRowInput)
  | [] => .ok []
  | record :: rest => do
      let record ← record.mapError fun _ => .malformedCsv
      let domain ← orError record.head? .malformedCsv
      require (index + 1 < 2 ^ 32) .tooManyRows
      let rows ← rowsFrom (index + 1) rest
      .ok (⟨index + 1, domain⟩ :: rows)

/-- `Reader::headers`: no fields where there is no record. -/
def headersOf : List (Except Unit (List Text)) → Except Unit (List Text)
  | [] => .ok []
  | header :: _ => header

def parseDocument (crate : CsvCrate) (input : List UInt8) :
    Except CsvImportParseError (List CsvImportRowInput) := do
  let headers ← (headersOf (crate.read input)).mapError fun _ => .malformedCsv
  require (!headers.isEmpty) .missingDomainHeader
  require (headers.length == 1) .unsupportedColumns
  let header ← orError headers.head? .missingDomainHeader
  require (isDomainHeader header) .missingDomainHeader
  require (!containsBlankDataLine input) .malformedCsv
  rowsFrom 0 (crate.read input).tail

end Parse

section Conditions

/-- The reader can be content with the document: its header is the one column, and
every other record has one field and can be numbered. -/
def IsReadable (crate : CsvCrate) (input : List UInt8) : Prop :=
  ∃ header rest, presentRecords input = header :: rest ∧
    (∃ name, crate.fields header = .ok [name] ∧ isDomainHeader name = true) ∧
    (∀ record ∈ rest, ∃ domain, crate.fields record = .ok [domain]) ∧ rest.length < 2 ^ 32

/-- A row for every record behind the header, in order and numbered from one. -/
def KeepsEveryRecord (crate : CsvCrate) (input : List UInt8) : Prop :=
  ∀ rows, parseDocument crate input = .ok rows →
    List.Forall₂ (fun record (row : CsvImportRowInput) =>
      ∃ more, crate.fields record = .ok (row.domain :: more)) (dataRecords input) rows ∧
    rows.map CsvImportRowInput.rowNumber = List.range' 1 (dataRecords input).length

/-- The document is rejected, and it would not be with spaces for the line breaks
within its quoted fields. -/
def RejectedForBreaks (crate : CsvCrate) (input : List UInt8) : Prop :=
  (∀ rows, parseDocument crate input ≠ .ok rows) ∧
    ∃ rows, parseDocument crate (unbrokenDocument input) = .ok rows

end Conditions

section Spacing

theorem spaced_of_other {byte : UInt8} (noFeed : byte ≠ lineFeed) (noReturn : byte ≠ carriageReturn) :
    spaced byte = byte := by
  rw [spaced, if_neg]
  simp [noFeed, noReturn]

theorem next_spaced (byte : UInt8) :
    FieldState.inQuoted.next (spaced byte) = FieldState.inQuoted.next byte := by
  unfold spaced
  split
  · rename_i isBreak
    rcases isBreak with same | same <;> rw [same] <;> rfl
  · rfl

/-- Replacing quoted line breaks moves no record boundary: by induction on the
document, the states of both passes stay the same. -/
theorem splitRecords_unbroken (state : FieldState) (current input : List UInt8) :
    splitRecords state (current.map spaced) (unbroken state input) =
      (splitRecords state current input).map (List.map spaced) := by
  induction input generalizing state current with
  | nil =>
      cases current with
      | nil => rfl
      | cons byte rest => simp [unbroken, splitRecords]
  | cons byte rest ih =>
      by_cases quoted : state = .inQuoted
      · rw [unbroken, if_pos quoted, splitRecords, if_pos quoted, splitRecords, if_pos quoted,
          quoted, next_spaced, ← List.map_cons, ih]
      · rw [unbroken, if_neg quoted]
        by_cases feed : byte = lineFeed
        · rw [if_pos feed, splitRecords, if_neg quoted, if_pos feed, splitRecords, if_neg quoted,
            if_pos feed]
          have later := ih .startField []
          rw [List.map_nil] at later
          by_cases paired : state = .afterReturn
          · rw [if_pos paired, if_pos paired, later]
          · rw [if_neg paired, if_neg paired, later, List.map_cons, List.map_reverse]
        · rw [if_neg feed]
          by_cases ret : byte = carriageReturn
          · have later := ih .afterReturn []
            rw [List.map_nil] at later
            rw [if_pos ret, splitRecords, if_neg quoted, if_neg feed, if_pos ret, splitRecords,
              if_neg quoted, if_neg feed, if_pos ret, later, List.map_cons, List.map_reverse]
          · have same := spaced_of_other feed ret
            have later := ih (state.next byte) (byte :: current)
            rw [List.map_cons, same] at later
            rw [if_neg ret, splitRecords, if_neg quoted, if_neg feed, if_neg ret, splitRecords,
              if_neg quoted, if_neg feed, if_neg ret, later]

theorem isPrefixOf_of_unbroken {start : List UInt8} (noSpace : (0x20 : UInt8) ∉ start)
    {state : FieldState} {input : List UInt8}
    (isPrefix : start.isPrefixOf (unbroken state input) = true) :
    start.isPrefixOf input = true := by
  induction start generalizing state input with
  | nil => simp
  | cons first rest ih =>
      have other : first ≠ 0x20 := fun same => noSpace (by rw [same]; exact List.mem_cons_self)
      have later : (0x20 : UInt8) ∉ rest := fun inRest => noSpace (List.mem_cons_of_mem _ inRest)
      cases input with
      | nil => cases isPrefix
      | cons byte tail =>
          have kept : ∀ {after : FieldState} {value : UInt8},
              (value = byte ∨ value = 0x20) →
              (first :: rest).isPrefixOf (value :: unbroken after tail) = true →
              (first :: rest).isPrefixOf (byte :: tail) = true := by
            intro after value from_ found
            rw [List.isPrefixOf, Bool.and_eq_true, beq_iff_eq] at found ⊢
            obtain ⟨same, rest⟩ := found
            refine ⟨?_, ih later rest⟩
            rcases from_ with own | space
            · rw [same, own]
            · exact absurd (same.trans space) other
          unfold unbroken at isPrefix
          split at isPrefix
          · refine kept ?_ isPrefix
            unfold spaced
            split
            · exact Or.inr rfl
            · exact Or.inl rfl
          · split at isPrefix
            · exact kept (Or.inl rfl) isPrefix
            · split at isPrefix
              · exact kept (Or.inl rfl) isPrefix
              · exact kept (Or.inl rfl) isPrefix

theorem documentRecords_unbroken (input : List UInt8) :
    documentRecords (unbrokenDocument input) = (documentRecords input).map (List.map spaced) := by
  have stripped : stripByteOrderMark (unbrokenDocument input) =
      unbroken .startField (stripByteOrderMark input) := by
    unfold unbrokenDocument stripByteOrderMark
    by_cases marked : byteOrderMark.isPrefixOf input = true
    · rw [if_pos marked, if_pos marked, if_pos]
      · rfl
      · rw [List.isPrefixOf_iff_prefix]
        exact List.prefix_append _ _
    · rw [if_neg marked, if_neg marked, if_neg]
      intro still
      exact marked (isPrefixOf_of_unbroken (by decide) still)
  rw [documentRecords, stripped]
  exact splitRecords_unbroken .startField [] _

theorem presentRecords_unbroken (input : List UInt8) :
    presentRecords (unbrokenDocument input) = (presentRecords input).map (List.map spaced) := by
  rw [presentRecords, documentRecords_unbroken, List.filter_map]
  unfold presentRecords
  congr 2
  funext record
  cases record <;> rfl

theorem isWhitespace_spacedChar (c : Char) : isWhitespace (spacedChar c) = isWhitespace c := by
  unfold spacedChar
  split
  · rename_i isBreak
    rcases isBreak with same | same <;> rw [same] <;> decide
  · rfl

theorem dropWhile_map_spacedChar {p : Char → Bool} (same : ∀ c, p (spacedChar c) = p c)
    (text : Text) : (text.map spacedChar).dropWhile p = (text.dropWhile p).map spacedChar := by
  rw [List.dropWhile_map]
  congr 2
  funext c
  exact same c

theorem trim_map_spacedChar (text : Text) :
    trim (text.map spacedChar) = (trim text).map spacedChar := by
  unfold trim List.rdropWhile
  rw [dropWhile_map_spacedChar isWhitespace_spacedChar, ← List.map_reverse,
    dropWhile_map_spacedChar isWhitespace_spacedChar, List.map_reverse]

theorem isDomainHeader_spaced (name : Text) :
    isDomainHeader (name.map spacedChar) = isDomainHeader name := by
  have marks : ∀ c, (spacedChar c == '\ufeff') = (c == '\ufeff') := by
    intro c
    unfold spacedChar
    split
    · rename_i isBreak
      rcases isBreak with same | same <;> rw [same] <;> decide
    · rfl
  unfold isDomainHeader
  rw [trim_map_spacedChar, dropWhile_map_spacedChar marks]
  generalize (trim name).dropWhile (· == '\ufeff') = text
  by_cases broken : ∃ c ∈ text, c = '\n' ∨ c = '\r'
  · obtain ⟨c, member, isBreak⟩ := broken
    have inSpaced : ' ' ∈ asciiLowercase (text.map spacedChar) := by
      have space : ' ' = (spacedChar c).toLower := by
        rw [spacedChar, if_pos isBreak]
        rfl
      rw [space]
      exact List.mem_map_of_mem (List.mem_map_of_mem member)
    have inText : c ∈ asciiLowercase text := by
      have lower : c = c.toLower := by
        rcases isBreak with same | same <;> rw [same] <;> rfl
      have lowered := List.mem_map_of_mem (f := Char.toLower) member
      rwa [← lower] at lowered
    have first : asciiLowercase (text.map spacedChar) ≠ "domain".toList := by
      intro same
      rw [same] at inSpaced
      revert inSpaced
      decide
    have second : asciiLowercase text ≠ "domain".toList := by
      intro same
      rw [same] at inText
      revert inText
      rcases isBreak with same | same <;> rw [same] <;> decide
    rw [beq_eq_false_iff_ne.mpr first, beq_eq_false_iff_ne.mpr second]
  · have plain : text.map spacedChar = text.map id := by
      apply List.map_congr_left
      intro c member
      rw [spacedChar, if_neg fun isBreak => broken ⟨c, member, isBreak⟩]
      rfl
    rw [plain, List.map_id]

end Spacing

section Rows

theorem rowsFrom_eq_ok_iff {records : List (Except Unit (List Text))} {index : Nat}
    {rows : List CsvImportRowInput} :
    rowsFrom index records = .ok rows ↔
      List.Forall₂ (fun record (row : CsvImportRowInput) =>
        ∃ more, record = .ok (row.domain :: more)) records rows ∧
      rows.map CsvImportRowInput.rowNumber = List.range' (index + 1) records.length ∧
      (records = [] ∨ index + records.length < 2 ^ 32) := by
  induction records generalizing index rows with
  | nil =>
      constructor
      · intro success
        cases success
        exact ⟨List.Forall₂.nil, rfl, Or.inl rfl⟩
      · rintro ⟨each, _, _⟩
        cases each
        rfl
  | cons record rest ih =>
      constructor
      · intro success
        obtain ⟨fields, decoded, success⟩ := bind_eq_ok.mp success
        obtain ⟨domain, first, success⟩ := bind_eq_ok.mp success
        obtain ⟨_, fits, success⟩ := bind_eq_ok.mp success
        obtain ⟨others, later, success⟩ := bind_eq_ok.mp success
        rw [mapError_eq_ok] at decoded
        rw [orError_eq_ok] at first
        have small : index + 1 < 2 ^ 32 := by simpa using require_eq_ok.mp fits
        obtain ⟨each, numbers, bound⟩ := ih.mp later
        rw [← Except.ok.inj success]
        refine ⟨List.Forall₂.cons ⟨fields.tail, ?_⟩ each, ?_, Or.inr ?_⟩
        · rw [decoded]
          cases fields with
          | nil => cases first
          | cons own more =>
              cases first
              rfl
        · rw [List.map_cons, numbers, List.length_cons, List.range'_succ]
        · rcases bound with none | few
          · rw [none]
            exact small
          · rw [List.length_cons]
            omega
      · rintro ⟨each, numbers, bound⟩
        cases each with
        | @cons _ row _ others own each =>
            obtain ⟨more, decoded⟩ := own
            rw [List.map_cons, List.length_cons, List.range'_succ, List.cons.injEq] at numbers
            have few : index + (record :: rest).length < 2 ^ 32 :=
              bound.resolve_left (List.cons_ne_nil _ _)
            rw [List.length_cons] at few
            have later : rowsFrom (index + 1) rest = .ok others :=
              ih.mpr ⟨each, numbers.2, Or.inr (by omega)⟩
            have small : index + 1 < 2 ^ 32 := by omega
            have same : row = ⟨index + 1, row.domain⟩ := by
              rw [← numbers.1]
            refine bind_eq_ok.mpr ⟨row.domain :: more, mapError_eq_ok.mpr decoded, ?_⟩
            refine bind_eq_ok.mpr ⟨row.domain, rfl, ?_⟩
            refine bind_eq_ok.mpr ⟨(), require_eq_ok.mpr (decide_eq_true small), ?_⟩
            refine bind_eq_ok.mpr ⟨others, later, ?_⟩
            rw [← same]

theorem sameLength_eq_ok {name : Text} {record : Except Unit (List Text)} {fields : List Text} :
    sameLength (.ok [name]) record = .ok fields ↔ record = .ok fields ∧ fields.length = 1 := by
  constructor
  · intro success
    unfold sameLength at success
    obtain ⟨header, named, success⟩ := bind_eq_ok.mp success
    obtain ⟨own, decoded, success⟩ := bind_eq_ok.mp success
    obtain ⟨_, equal, success⟩ := bind_eq_ok.mp success
    have counted := require_eq_ok.mp equal
    rw [← Except.ok.inj named] at counted
    rw [← Except.ok.inj success]
    exact ⟨decoded, by simpa using counted⟩
  · rintro ⟨decoded, single⟩
    refine bind_eq_ok.mpr ⟨[name], rfl, bind_eq_ok.mpr ⟨fields, decoded, ?_⟩⟩
    exact bind_eq_ok.mpr ⟨(), require_eq_ok.mpr (by simp [single]), rfl⟩

theorem forall₂_sameLength {crate : CsvCrate} {name : Text} {records : List (List UInt8)}
    {rows : List CsvImportRowInput} :
    List.Forall₂ (fun record (row : CsvImportRowInput) =>
      ∃ more, record = .ok (row.domain :: more))
      (records.map fun record => sameLength (.ok [name]) (crate.fields record)) rows ↔
    List.Forall₂ (fun record (row : CsvImportRowInput) =>
      crate.fields record = .ok [row.domain]) records rows := by
  rw [List.forall₂_map_left_iff]
  constructor
  · intro each
    apply each.imp
    intro record row own
    obtain ⟨more, checked⟩ := own
    obtain ⟨decoded, single⟩ := sameLength_eq_ok.mp checked
    cases more with
    | nil => exact decoded
    | cons next others => simp at single
  · intro each
    apply each.imp
    intro record row decoded
    exact ⟨[], sameLength_eq_ok.mpr ⟨decoded, rfl⟩⟩

theorem exists_rows {crate : CsvCrate} {records : List (List UInt8)}
    (single : ∀ record ∈ records, ∃ domain, crate.fields record = .ok [domain]) (start : Nat) :
    ∃ rows : List CsvImportRowInput,
      List.Forall₂ (fun record (row : CsvImportRowInput) =>
        crate.fields record = .ok [row.domain]) records rows ∧
      rows.map CsvImportRowInput.rowNumber = List.range' start records.length := by
  induction records generalizing start with
  | nil => exact ⟨[], List.Forall₂.nil, rfl⟩
  | cons record rest ih =>
      obtain ⟨domain, own⟩ := single record List.mem_cons_self
      obtain ⟨rows, each, numbers⟩ :=
        ih (fun other member => single other (List.mem_cons_of_mem _ member)) (start + 1)
      refine ⟨⟨start, domain⟩ :: rows, List.Forall₂.cons own each, ?_⟩
      rw [List.map_cons, numbers, List.length_cons, List.range'_succ]

theorem map_eq_ok_singleton {result : Except Unit (List Text)} {g : Text → Text} {text : Text} :
    result.map (List.map g) = .ok [text] ↔ ∃ own, result = .ok [own] ∧ g own = text := by
  rw [map_eq_ok]
  constructor
  · rintro ⟨fields, same, mapped⟩
    obtain ⟨own, rfl, found⟩ := List.map_eq_singleton_iff.mp mapped
    exact ⟨own, same, found⟩
  · rintro ⟨own, same, found⟩
    exact ⟨[own], same, by rw [List.map_singleton, found]⟩

/-- The records behind the header, without the empty ones. -/
theorem filter_dataRecords {input : List UInt8} {header : List UInt8} {rest : List (List UInt8)}
    (records : presentRecords input = header :: rest) :
    (dataRecords input).filter (fun record => !record.isEmpty) = rest := by
  have skipped : ((documentRecords input).dropWhile List.isEmpty).filter
      (fun record => !record.isEmpty) = header :: rest := by
    rw [← records, presentRecords]
    induction documentRecords input with
    | nil => rfl
    | cons record others ih =>
        cases empty : record.isEmpty with
        | true => simp [empty, ih]
        | false => simp [empty]
  unfold dataRecords
  cases found : (documentRecords input).dropWhile List.isEmpty with
  | nil =>
      rw [found] at skipped
      cases skipped
  | cons first others =>
      have present := List.head?_dropWhile_not List.isEmpty (documentRecords input)
      rw [found] at present
      change (first.isEmpty = false) at present
      rw [found, List.filter_cons, if_pos (by rw [present]; rfl)] at skipped
      exact (List.cons.inj skipped).2

variable {crate : CsvCrate} (lawful : crate.Lawful) {input : List UInt8}

include lawful

/-- A document is accepted where its header is the one column, no blank line is
found, and the records behind the header give its rows. -/
theorem parseDocument_eq_ok_iff {rows : List CsvImportRowInput} :
    parseDocument crate input = .ok rows ↔
      containsBlankDataLine input = false ∧
      ∃ header rest, presentRecords input = header :: rest ∧
        (∃ name, crate.fields header = .ok [name] ∧ isDomainHeader name = true) ∧
        List.Forall₂ (fun record (row : CsvImportRowInput) =>
          crate.fields record = .ok [row.domain]) rest rows ∧
        rows.map CsvImportRowInput.rowNumber = List.range' 1 rest.length ∧
        rest.length < 2 ^ 32 := by
  have read := lawful.read input
  constructor
  · intro success
    unfold parseDocument at success
    obtain ⟨headers, isHeaders, success⟩ := bind_eq_ok.mp success
    obtain ⟨_, present, success⟩ := bind_eq_ok.mp success
    obtain ⟨_, single, success⟩ := bind_eq_ok.mp success
    obtain ⟨name, first, success⟩ := bind_eq_ok.mp success
    obtain ⟨_, domain, success⟩ := bind_eq_ok.mp success
    obtain ⟨_, notBlank, success⟩ := bind_eq_ok.mp success
    rw [mapError_eq_ok] at isHeaders
    have one : headers = [name] := by
      have length : headers.length = 1 := by simpa using require_eq_ok.mp single
      obtain ⟨own, same⟩ := List.length_eq_one_iff.mp length
      rw [same] at first ⊢
      cases first
      rfl
    refine ⟨by simpa using require_eq_ok.mp notBlank, ?_⟩
    cases records : presentRecords input with
    | nil =>
        rw [read, records] at isHeaders
        rw [one] at isHeaders
        cases isHeaders
    | cons header rest =>
        rw [records] at read
        rw [read] at isHeaders success
        have named : crate.fields header = .ok [name] := by
          rw [← one]
          exact isHeaders
        obtain ⟨each, numbers, bound⟩ := rowsFrom_eq_ok_iff.mp success
        rw [readRecords, List.tail_cons, named] at each numbers bound
        rw [List.length_map] at numbers bound
        refine ⟨header, rest, rfl, ⟨name, named, require_eq_ok.mp domain⟩,
          forall₂_sameLength.mp each, numbers, ?_⟩
        rcases bound with none | few
        · rw [List.map_eq_nil_iff] at none
          rw [none]
          decide
        · omega
  · rintro ⟨notBlank, header, rest, records, ⟨name, named, domain⟩, each, numbers, few⟩
    rw [records] at read
    have tail : (crate.read input).tail =
        rest.map fun record => sameLength (.ok [name]) (crate.fields record) := by
      rw [read, readRecords, List.tail_cons, named]
    have loop : rowsFrom 0 (crate.read input).tail = .ok rows := by
      rw [tail, rowsFrom_eq_ok_iff, List.length_map]
      exact ⟨forall₂_sameLength.mpr each, numbers, Or.inr (by omega)⟩
    unfold parseDocument
    refine bind_eq_ok.mpr ⟨[name], ?_, ?_⟩
    · rw [mapError_eq_ok, read]
      exact named
    refine bind_eq_ok.mpr ⟨(), rfl, bind_eq_ok.mpr ⟨(), rfl, bind_eq_ok.mpr ⟨name, rfl, ?_⟩⟩⟩
    refine bind_eq_ok.mpr ⟨(), require_eq_ok.mpr domain, ?_⟩
    exact bind_eq_ok.mpr ⟨(), require_eq_ok.mpr (by simp [notBlank]), loop⟩

theorem isReadable_of_parse {rows : List CsvImportRowInput}
    (success : parseDocument crate input = .ok rows) : IsReadable crate input := by
  obtain ⟨_, header, rest, records, named, each, _, few⟩ := (parseDocument_eq_ok_iff lawful).mp success
  have both : List.Forall₂ (fun record (row : CsvImportRowInput) =>
      (∃ domain, crate.fields record = .ok [domain]) ∧ crate.fields record = .ok [row.domain])
      rest rows := each.imp fun record row decoded => ⟨⟨row.domain, decoded⟩, decoded⟩
  exact ⟨header, rest, records, named, ((List.forall₂_and_left _ _).mp both).1, few⟩

theorem exists_parseDocument_iff : (∃ rows, parseDocument crate input = .ok rows) ↔
    IsReadable crate input ∧ containsBlankDataLine input = false := by
  constructor
  · rintro ⟨rows, success⟩
    exact ⟨isReadable_of_parse lawful success, ((parseDocument_eq_ok_iff lawful).mp success).1⟩
  · rintro ⟨⟨header, rest, records, named, single, few⟩, notBlank⟩
    obtain ⟨rows, each, numbers⟩ := exists_rows single 1
    exact ⟨rows, (parseDocument_eq_ok_iff lawful).mpr
      ⟨notBlank, header, rest, records, named, each, numbers, few⟩⟩

/-- A reader takes the document with and without the line breaks in its quoted
fields. -/
theorem isReadable_unbroken :
    IsReadable crate (unbrokenDocument input) ↔ IsReadable crate input := by
  have quoted : ∀ record ∈ presentRecords input, crate.fields (record.map spaced) =
      (crate.fields record).map (List.map (List.map spacedChar)) := by
    intro record member
    exact lawful.quoted input record (List.mem_filter.mp member).1
  unfold IsReadable
  rw [presentRecords_unbroken]
  cases records : presentRecords input with
  | nil => simp
  | cons header rest =>
      rw [records] at quoted
      have ofHeader := quoted header List.mem_cons_self
      simp only [List.map_cons, List.cons.injEq]
      constructor
      · rintro ⟨_, _, ⟨rfl, rfl⟩, ⟨name, named, domain⟩, single, few⟩
        rw [ofHeader, map_eq_ok_singleton] at named
        obtain ⟨own, named, rfl⟩ := named
        rw [isDomainHeader_spaced] at domain
        refine ⟨header, rest, ⟨rfl, rfl⟩, ⟨own, named, domain⟩, ?_, by simpa using few⟩
        intro record member
        obtain ⟨text, decoded⟩ := single _ (List.mem_map_of_mem member)
        rw [quoted record (List.mem_cons_of_mem _ member), map_eq_ok_singleton] at decoded
        obtain ⟨own, decoded, _⟩ := decoded
        exact ⟨own, decoded⟩
      · rintro ⟨_, _, ⟨rfl, rfl⟩, ⟨name, named, domain⟩, single, few⟩
        refine ⟨_, _, ⟨rfl, rfl⟩, ⟨name.map spacedChar, ?_, ?_⟩, ?_, by simpa using few⟩
        · rw [ofHeader, map_eq_ok_singleton]
          exact ⟨name, named, rfl⟩
        · rw [isDomainHeader_spaced]
          exact domain
        · intro record member
          obtain ⟨own, inRest, rfl⟩ := List.mem_map.mp member
          obtain ⟨text, decoded⟩ := single own inRest
          refine ⟨text.map spacedChar, ?_⟩
          rw [quoted own (List.mem_cons_of_mem _ inRest), map_eq_ok_singleton]
          exact ⟨text, decoded, rfl⟩

theorem rejectedForBreaks_iff : RejectedForBreaks crate input ↔
    IsReadable crate input ∧ containsBlankDataLine input = true ∧
      containsBlankDataLine (unbrokenDocument input) = false := by
  unfold RejectedForBreaks
  rw [exists_parseDocument_iff lawful, isReadable_unbroken lawful, ← not_exists,
    exists_parseDocument_iff lawful]
  cases containsBlankDataLine input
  · simp
    tauto
  · simp

/-- Records are lost exactly where the reader skips one that the scan of the lines
does not see. -/
theorem keepsEveryRecord_iff : KeepsEveryRecord crate input ↔
    (IsReadable crate input → containsBlankDataLine input = false →
      ∀ record ∈ dataRecords input, record ≠ []) := by
  constructor
  · intro keeps readable notBlank
    obtain ⟨rows, success⟩ := (exists_parseDocument_iff lawful).mpr ⟨readable, notBlank⟩
    obtain ⟨_, header, rest, records, _, each, _, _⟩ := (parseDocument_eq_ok_iff lawful).mp success
    have all : ((dataRecords input).filter fun record => !record.isEmpty).length =
        (dataRecords input).length := by
      rw [filter_dataRecords records, each.length_eq, (keeps rows success).1.length_eq]
    intro record member
    have present := List.length_filter_eq_length_iff.mp all record member
    simpa using present
  · intro present rows success
    have readable := isReadable_of_parse lawful success
    obtain ⟨notBlank, header, rest, records, _, each, numbers, _⟩ :=
      (parseDocument_eq_ok_iff lawful).mp success
    have all : dataRecords input = rest := by
      rw [← filter_dataRecords records, eq_comm, List.filter_eq_self]
      intro record member
      simpa using present readable notBlank record member
    rw [all]
    refine ⟨each.imp fun record row decoded => ⟨[], decoded⟩, numbers⟩

/-- Nothing is dropped and nothing is rejected for a quoted line break, except for
readable documents with an empty record that the scan does not see, or with a
blank line that only their quoted fields have. -/
theorem parseDocument_exact_iff :
    (KeepsEveryRecord crate input ∧ ¬RejectedForBreaks crate input) ↔
      (IsReadable crate input →
        if containsBlankDataLine input = true then
          containsBlankDataLine (unbrokenDocument input) = true
        else ∀ record ∈ dataRecords input, record ≠ []) := by
  rw [keepsEveryRecord_iff lawful, rejectedForBreaks_iff lawful]
  cases containsBlankDataLine input <;> simp

end Rows

section Witness

/-- A crate for documents without commas in their fields. -/
def plainFields (record : List UInt8) : Except Unit (List Text) :=
  if record.all (· < 0x80) then
    .ok [(record.filter (· != quote)).map fun byte => Char.ofNat byte.toNat]
  else .error ()

def plainCsv : CsvCrate where
  fields := plainFields
  read input := readRecords plainFields (presentRecords input)

/-- A byte that no break is mistaken for stays the same under a test. -/
theorem test_spaced {test : UInt8 → Bool} (feed : test lineFeed = test 0x20)
    (ret : test carriageReturn = test 0x20) : test ∘ spaced = test := by
  funext byte
  simp only [Function.comp, spaced]
  split
  · rename_i isBreak
    rcases isBreak with same | same
    · rw [same, feed]
    · rw [same, ret]
  · rfl

theorem plainFields_spaced (record : List UInt8) : plainFields (record.map spaced) =
    (plainFields record).map (List.map (List.map spacedChar)) := by
  have small : (fun byte : UInt8 => decide (byte < 0x80)) ∘ spaced =
      fun byte => decide (byte < 0x80) := test_spaced (by decide) (by decide)
  have kept : (fun byte : UInt8 => byte != quote) ∘ spaced = fun byte => byte != quote :=
    test_spaced (by decide) (by decide)
  have chars : ∀ n < 128, Char.ofNat (spaced (UInt8.ofNat n)).toNat =
      spacedChar (Char.ofNat (UInt8.ofNat n).toNat) := by
    decide
  unfold plainFields
  rw [List.all_map, small]
  by_cases plain : (record.all fun byte => decide (byte < 0x80)) = true
  · rw [if_pos plain, if_pos plain, List.filter_map, kept, List.map_map]
    simp only [Except.map, List.map_cons, List.map_nil, List.map_map]
    congr 2
    apply List.map_congr_left
    intro byte member
    have below := List.all_eq_true.mp plain byte (List.mem_filter.mp member).1
    rw [decide_eq_true_eq, UInt8.lt_iff_toNat_lt] at below
    have same := chars byte.toNat below
    rwa [UInt8.ofNat_toNat] at same
  · rw [if_neg plain, if_neg plain]
    rfl

theorem plainCsv_lawful : plainCsv.Lawful where
  read _ := rfl
  quoted _ record _ := plainFields_spaced record

def bytesOf (text : String) : List UInt8 := text.toList.map fun c => UInt8.ofNat c.toNat

theorem parseDocument_exact_quoted :
    KeepsEveryRecord plainCsv (bytesOf "domain\na.com\r\n\"b.com\n\"\n") ∧
      ¬RejectedForBreaks plainCsv (bytesOf "domain\na.com\r\n\"b.com\n\"\n") :=
  (parseDocument_exact_iff plainCsv_lawful).mpr fun _ => by decide

/-- With CR alone as the terminator the scan sees a single line: the empty record
between two rows is gone, and nothing tells so. -/
theorem parseDocument_drops : ¬∀ crate : CsvCrate, crate.Lawful → ∀ input,
    KeepsEveryRecord crate input ∧ ¬RejectedForBreaks crate input := by
  intro keeps
  have claimed := keeps plainCsv plainCsv_lawful (bytesOf "domain\ra.com\r\rb.com\r")
  have readable : IsReadable plainCsv (bytesOf "domain\ra.com\r\rb.com\r") :=
    ⟨bytesOf "domain", [bytesOf "a.com", bytesOf "b.com"], by decide,
      ⟨"domain".toList, rfl, by decide⟩,
      by simp only [List.forall_mem_cons]; exact ⟨⟨_, rfl⟩, ⟨_, rfl⟩, by simp⟩, by decide⟩
  have seen := (parseDocument_exact_iff plainCsv_lawful).mp claimed readable
  revert seen
  decide

end Witness

end TechAtlas.Domains
