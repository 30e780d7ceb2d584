import TechAtlas.Public.Timeline
import TechAtlas.Store.SearchIndex

set_option autoImplicit false

/- The filters of a domain search: the strings that the API's query becomes, and
what the search index reads in them. -/
namespace TechAtlas.Search

open Library Store TechAtlas.Public

section Documents

structure SearchTechnologyDocument where
  slug : Text
  categorySlug : Text
  confidence : Nat
  lastObservedAt : Time
  deriving DecidableEq

structure DomainSearchDocument where
  domain : Text
  technologySlugs : List Text
  categorySlugs : List Text
  technologies : List SearchTechnologyDocument
  lastCrawledAt : Option Time
  lastCrawledAtUnix : Option Int
  countryCode : Option Text
  maxConfidence : Nat
  deriving DecidableEq

/-- `OffsetDateTime::unix_timestamp`: the whole seconds, rounded down. -/
def unixTimestamp (time : Time) : Int := time / 1000000

def DomainSearchDocument.ofProjection (projection : SearchDomainProjection) :
    DomainSearchDocument :=
  let technologies := (projection.technologies.map fun technology =>
    (⟨technology.slug, technology.categorySlug, technology.confidence,
      technology.lastObservedAt⟩ : SearchTechnologyDocument)).insertionSort
        fun left right => left.slug ≤ right.slug
  { domain := projection.domain.canonicalDomain
    technologySlugs := technologies.map SearchTechnologyDocument.slug
    categorySlugs := ((technologies.map SearchTechnologyDocument.categorySlug).insertionSort
      (· ≤ ·)).destutter (· ≠ ·)
    technologies := technologies
    lastCrawledAt := projection.domain.lastCrawledAt
    lastCrawledAtUnix := projection.domain.lastCrawledAt.map unixTimestamp
    countryCode := projection.domain.countryCode
    maxConfidence := (technologies.map SearchTechnologyDocument.confidence).max?.getD 0 }

end Documents

section Requests

inductive DomainSearchSort
  | relevance
  | lastCrawledDesc
  | updatedDesc
  deriving DecidableEq, Repr

/-- The parameters of the request. -/
structure SearchQuery where
  q : Option Text
  technology : Option (List Text)
  category : Option (List Text)
  country : Option (List Text)
  crawledSince : Option Int
  minConfidence : Option UInt8
  limit : Option Nat
  offset : Option Nat
  sort : Option Text

structure DomainSearchQuery where
  query : Option Text
  technologySlugs : List Text
  categorySlugs : List Text
  countryCodes : List Text
  crawledSince : Option Time
  minConfidence : Option UInt8
  limit : Nat
  offset : Nat
  sort : DomainSearchSort
  deriving DecidableEq

def validSlug (value : Text) : Bool :=
  !value.isEmpty && decide (utf8Length value ≤ 64) &&
    value.all fun c => c.isLower || c.isDigit || c == '-'

def validateSlugs (values : List Text) : Except PublicApiError (List Text) :=
  if 20 < values.length || values.any fun value => !validSlug value then .error .validation
  else .ok values

def validateCountries (values : List Text) : Except PublicApiError (List Text) :=
  if 20 < values.length ||
      values.any fun value => utf8Length value != 2 || !value.all Char.isUpper then
    .error .validation
  else .ok values

def pageLimit (limit : Option Nat) : Except PublicApiError Nat :=
  let limit := limit.getD 50
  if 1 ≤ limit ∧ limit ≤ 100 then .ok limit else .error .validation

def parseSort (sort : Option Text) : Except PublicApiError DomainSearchSort :=
  let sort := sort.getD "relevance".toList
  if sort = "relevance".toList then .ok .relevance
  else if sort = "last_crawled_desc".toList then .ok .lastCrawledDesc
  else if sort = "updated_desc".toList then .ok .updatedDesc
  else .error .validation

def crawledSinceOf : Option Int → Except PublicApiError (Option Time)
  | none => .ok none
  | some seconds => (orError (fromUnixTimestamp seconds) .validation).map some

def setOnce {α : Type} (target : Option α) (value : α) : Except PublicApiError (Option α) :=
  if target.isSome then .error .validation else .ok (some value)

/-- `str::parse` of an unsigned number. -/
def parseUnsigned (most : Nat) (text : Text) : Option Nat :=
  let digits := match text with
    | '+' :: rest => rest
    | _ => text
  if digits.isEmpty || !digits.all Char.isDigit then none
  else if decimalValue digits ≤ most then some (decimalValue digits) else none

def SearchQuery.withParameter (query : SearchQuery) (parameter : Text × Text) :
    Except PublicApiError SearchQuery :=
  let (key, value) := parameter
  if key = "q".toList then (setOnce query.q value).map fun q => { query with q := q }
  else if key = "technology".toList then
    .ok { query with technology := some (query.technology.getD [] ++ [value]) }
  else if key = "category".toList then
    .ok { query with category := some (query.category.getD [] ++ [value]) }
  else if key = "country".toList then
    .ok { query with country := some (query.country.getD [] ++ [value]) }
  else if key = "crawled_since".toList then do
    let seconds ← orError (parseI64 value) .validation
    (setOnce query.crawledSince seconds).map fun since => { query with crawledSince := since }
  else if key = "min_confidence".toList then do
    let minimum ← orError (parseUnsigned 255 value) .validation
    (setOnce query.minConfidence (UInt8.ofNat minimum)).map fun minimum =>
      { query with minConfidence := minimum }
  else if key = "limit".toList then do
    let limit ← orError (parseUnsigned (2 ^ 64 - 1) value) .validation
    (setOnce query.limit limit).map fun limit => { query with limit := limit }
  else if key = "offset".toList then do
    let offset ← orError (parseUnsigned (2 ^ 64 - 1) value) .validation
    (setOnce query.offset offset).map fun offset => { query with offset := offset }
  else if key = "sort".toList then
    (setOnce query.sort value).map fun sort => { query with sort := sort }
  else .ok query

/-- `parse_search_query`, of the decoded pairs of the query string. -/
def parseSearchQuery (parameters : List (Text × Text)) : Except PublicApiError SearchQuery :=
  parameters.foldlM SearchQuery.withParameter ⟨none, none, none, none, none, none, none, none, none⟩

/-- The query that `search_domains` hands to the index. -/
def searchDomains (parameters : List (Text × Text)) :
    Except PublicApiError DomainSearchQuery := do
  let query ← parseSearchQuery parameters
  let limit ← pageLimit query.limit
  let offset := query.offset.getD 0
  require (decide (offset ≤ 10000)) .validation
  let sort ← parseSort query.sort
  let q := (query.q.filter fun value => !(trim value).isEmpty).map trim
  require (q.all fun value => decide (utf8Length value ≤ 200)) .validation
  let technologySlugs ← validateSlugs (query.technology.getD [])
  let categorySlugs ← validateSlugs (query.category.getD [])
  let countryCodes ← validateCountries (query.country.getD [])
  let crawledSince ← crawledSinceOf query.crawledSince
  .ok {
    query := q
    technologySlugs := technologySlugs
    categorySlugs := categorySlugs
    countryCodes := countryCodes
    crawledSince := crawledSince
    minConfidence := query.minConfidence
    limit := limit
    offset := offset
    sort := sort }

end Requests

section Filters

/-- `str::replace` of a character. -/
def replaceChar (old : Char) (new text : Text) : Text :=
  text.flatMap fun c => if c = old then new else [c]

def escapeFilter (value : Text) : Text :=
  replaceChar '\'' ['\\', '\''] (replaceChar '\\' ['\\', '\\'] value)

/-- The attributes that filters are about. -/
inductive FilterField
  | technologySlugs
  | categorySlugs
  | countryCode
  | lastCrawledAtUnix
  | maxConfidence
  deriving DecidableEq, Repr

def FilterField.name : FilterField → Text
  | .technologySlugs => "technology_slugs".toList
  | .categorySlugs => "category_slugs".toList
  | .countryCode => "country_code".toList
  | .lastCrawledAtUnix => "last_crawled_at_unix".toList
  | .maxConfidence => "max_confidence".toList

/-- `{field} = '{value}'`. -/
def equalsEntry (field : FilterField) (value : Text) : Text :=
  field.name ++ " = '".toList ++ escapeFilter value ++ "'".toList

def intText : Int → Text
  | .ofNat n => Nat.toDigits 10 n
  | .negSucc n => '-' :: Nat.toDigits 10 (n + 1)

/-- `{field} >= {bound}`. -/
def atLeastEntry (field : FilterField) (bound : Int) : Text :=
  field.name ++ " >= ".toList ++ intText bound

/-- The list that `search` sends. -/
def DomainSearchQuery.filters (query : DomainSearchQuery) : List Text :=
  query.technologySlugs.map (equalsEntry .technologySlugs) ++
    query.categorySlugs.map (equalsEntry .categorySlugs) ++
    query.countryCodes.map (equalsEntry .countryCode) ++
    (query.crawledSince.map fun since =>
      atLeastEntry .lastCrawledAtUnix (unixTimestamp since)).toList ++
    (query.minConfidence.map fun minimum => atLeastEntry .maxConfidence minimum.toNat).toList

end Filters

section Reading

/-- What the index makes of one entry. -/
inductive FilterEntry
  | equals (field : FilterField) (value : Text)
  | atLeast (field : FilterField) (bound : Int)
  deriving DecidableEq, Repr

def fieldOf (name : Text) : Option FilterField :=
  [FilterField.technologySlugs, .categorySlugs, .countryCode, .lastCrawledAtUnix,
    .maxConfidence].find? fun field => field.name == name

/-- The rest of a quoted string up to the quote that ends the entry; a backslash
stands before a character that is meant as such. -/
def readQuoted : Text → Option Text
  | [] => none
  | ['\''] => some []
  | '\'' :: _ => none
  | ['\\'] => none
  | '\\' :: c :: rest => (readQuoted rest).map (c :: ·)
  | c :: rest => (readQuoted rest).map (c :: ·)

def readFilter (entry : Text) : Option FilterEntry := do
  let field ← fieldOf (entry.takeWhile (· != ' '))
  match entry.dropWhile (· != ' ') with
  | ' ' :: '=' :: ' ' :: '\'' :: value => (readQuoted value).map (FilterEntry.equals field)
  | ' ' :: '>' :: '=' :: ' ' :: bound => (parseI64 bound).map (FilterEntry.atLeast field)
  | _ => none

/-- The strings a document has at a field: several for a list, none for null. -/
def DomainSearchDocument.strings (document : DomainSearchDocument) : FilterField → List Text
  | .technologySlugs => document.technologySlugs
  | .categorySlugs => document.categorySlugs
  | .countryCode => document.countryCode.toList
  | .lastCrawledAtUnix => []
  | .maxConfidence => []

def DomainSearchDocument.number (document : DomainSearchDocument) : FilterField → Option Int
  | .technologySlugs => none
  | .categorySlugs => none
  | .countryCode => none
  | .lastCrawledAtUnix => document.lastCrawledAtUnix
  | .maxConfidence => some document.maxConfidence

def DomainSearchDocument.meets (document : DomainSearchDocument) : FilterEntry → Bool
  | .equals field value => (document.strings field).contains value
  | .atLeast field bound => (document.number field).any fun value => decide (bound ≤ value)

/-- The index takes the list as a conjunction. -/
def DomainSearchDocument.satisfies (document : DomainSearchDocument) (entries : List Text) : Bool :=
  entries.all fun entry => (readFilter entry).any document.meets

/-- What the query asks of a document. -/
structure DomainSearchQuery.Wants (query : DomainSearchQuery) (document : DomainSearchDocument) :
    Prop where
  technologies : ∀ slug ∈ query.technologySlugs, slug ∈ document.technologySlugs
  categories : ∀ slug ∈ query.categorySlugs, slug ∈ document.categorySlugs
  country : query.countryCodes ≠ [] → ∃ code ∈ query.countryCodes, document.countryCode = some code
  confidence : ∀ minimum, query.minConfidence = some minimum →
    minimum.toNat ≤ document.maxConfidence
  recency : ∀ since, query.crawledSince = some since →
    ∃ crawled, document.lastCrawledAt = some crawled ∧ since ≤ crawled

end Reading

section Entries

theorem readQuoted_escapeFilter (value : Text) :
    readQuoted (escapeFilter value ++ "'".toList) = some value := by
  induction value with
  | nil => rfl
  | cons c rest ih =>
      have split : escapeFilter (c :: rest) = escapeFilter [c] ++ escapeFilter rest := by
        simp [escapeFilter, replaceChar]
      rw [split, List.append_assoc]
      by_cases isSlash : c = '\\'
      · subst isSlash
        change readQuoted ('\\' :: '\\' :: (escapeFilter rest ++ "'".toList)) = _
        rw [readQuoted, ih]
        rfl
      · by_cases isQuote : c = '\''
        · subst isQuote
          change readQuoted ('\\' :: '\'' :: (escapeFilter rest ++ "'".toList)) = _
          rw [readQuoted, ih]
          rfl
        · have plain : escapeFilter [c] = [c] := by
            simp [escapeFilter, replaceChar, isSlash, isQuote]
          rw [plain, List.singleton_append, readQuoted, ih]
          · rfl
          all_goals simp_all

theorem decimalValue_toDigits (n : Nat) : decimalValue (Nat.toDigits 10 n) = n := by
  induction n using Nat.strongRecOn with
  | _ n ih =>
      have digit : ∀ d < 10, (Nat.digitChar d).toNat - 48 = d := by decide
      rw [Nat.toDigits_eq_if (by decide)]
      split
      · rename_i small
        change 0 * 10 + ((Nat.digitChar n).toNat - 48) = n
        rw [digit n small]
        omega
      · rename_i large
        have earlier := ih (n / 10) (by omega)
        unfold decimalValue at earlier ⊢
        rw [List.foldl_append, earlier, List.foldl_cons, List.foldl_nil, digit _ (by omega)]
        omega

theorem isDigit_toDigits {n : Nat} : ∀ c ∈ Nat.toDigits 10 n, c.isDigit = true :=
  fun _ => Nat.isDigit_of_mem_toDigits (by decide) (by decide)

theorem digits_toDigits (n : Nat) :
    ((Nat.toDigits 10 n).isEmpty || !(Nat.toDigits 10 n).all Char.isDigit) = false := by
  rw [Bool.or_eq_false_iff, Bool.not_eq_false', List.all_eq_true, List.isEmpty_eq_false_iff]
  exact ⟨Nat.toDigits_ne_nil, isDigit_toDigits⟩

theorem parseI64_toDigits {n : Nat} (small : (n : Int) < 2 ^ 63) :
    parseI64 (Nat.toDigits 10 n) = some (n : Int) := by
  have first : ∀ {c : Char} {rest : Text}, Nat.toDigits 10 n = c :: rest → c.isDigit = true := by
    intro c rest digits
    apply isDigit_toDigits (n := n)
    rw [digits]
    exact List.mem_cons_self
  unfold parseI64
  split
  rename_i negative digits found
  split at found
  · rename_i signed
    have notDigit : '-'.isDigit = false := by decide
    rw [first signed] at notDigit
    cases notDigit
  · rename_i signed
    have notDigit : '+'.isDigit = false := by decide
    rw [first signed] at notDigit
    cases notDigit
  · cases found
    rw [digits_toDigits, if_neg Bool.false_ne_true, decimalValue_toDigits]
    exact if_pos ⟨by omega, small⟩

/-- The index reads back the bound that was written. -/
theorem parseI64_intText {n : Int} (bounds : -2 ^ 63 ≤ n ∧ n < 2 ^ 63) :
    parseI64 (intText n) = some n := by
  cases n with
  | ofNat k => exact parseI64_toDigits bounds.2
  | negSucc k =>
      unfold parseI64 intText
      split
      rename_i negative digits found
      split at found
      · rename_i signed
        have rest := (List.cons.inj signed).2
        cases found
        rw [← rest, digits_toDigits, if_neg Bool.false_ne_true, if_pos rfl, decimalValue_toDigits]
        exact if_pos bounds
      · rename_i signed
        exact absurd (List.cons.inj signed).1 (by decide)
      · rename_i unsigned _
        exact absurd rfl (unsigned _)

theorem name_plain (field : FilterField) : ∀ c ∈ field.name, (c != ' ') = true := by
  apply forall_mem_of_all
  cases field <;> decide +kernel

theorem fieldOf_name (field : FilterField) : fieldOf field.name = some field := by
  cases field <;> decide +kernel

theorem takeWhile_name (field : FilterField) (rest : Text) :
    (field.name ++ ' ' :: rest).takeWhile (· != ' ') = field.name ∧
      (field.name ++ ' ' :: rest).dropWhile (· != ' ') = ' ' :: rest := by
  constructor
  · rw [List.takeWhile_append_of_pos (name_plain field)]
    simp
  · rw [List.dropWhile_append_of_pos (name_plain field)]
    simp

theorem readFilter_equalsEntry (field : FilterField) (value : Text) :
    readFilter (equalsEntry field value) = some (.equals field value) := by
  have shape : equalsEntry field value =
      field.name ++ ' ' :: '=' :: ' ' :: '\'' :: (escapeFilter value ++ "'".toList) := by
    simp [equalsEntry]
  unfold readFilter
  rw [shape, (takeWhile_name field _).1, (takeWhile_name field _).2, fieldOf_name]
  simp only [readQuoted_escapeFilter, Option.bind_eq_bind, Option.bind_some, Option.map_some]

theorem readFilter_atLeastEntry (field : FilterField) {bound : Int}
    (bounds : -2 ^ 63 ≤ bound ∧ bound < 2 ^ 63) :
    readFilter (atLeastEntry field bound) = some (.atLeast field bound) := by
  have shape : atLeastEntry field bound =
      field.name ++ ' ' :: '>' :: '=' :: ' ' :: intText bound := by
    simp [atLeastEntry]
  unfold readFilter
  rw [shape, (takeWhile_name field _).1, (takeWhile_name field _).2, fieldOf_name]
  simp only [parseI64_intText bounds, Option.bind_eq_bind, Option.bind_some, Option.map_some]

end Entries

section Indexed

variable (projection : SearchDomainProjection)

theorem mem_technologySlugs {slug : Text} :
    slug ∈ (DomainSearchDocument.ofProjection projection).technologySlugs ↔
      ∃ technology ∈ projection.technologies, technology.slug = slug := by
  simp [DomainSearchDocument.ofProjection]

theorem mem_categorySlugs {slug : Text} :
    slug ∈ (DomainSearchDocument.ofProjection projection).categorySlugs ↔
      ∃ technology ∈ projection.technologies, technology.categorySlug = slug := by
  simp [DomainSearchDocument.ofProjection, mem_destutter_insertionSort]

theorem le_maxConfidence {technology : SearchTechnologyProjection}
    (member : technology ∈ projection.technologies) :
    technology.confidence ≤ (DomainSearchDocument.ofProjection projection).maxConfidence := by
  have inConfidences : technology.confidence ∈
      (DomainSearchDocument.ofProjection projection).technologies.map
        SearchTechnologyDocument.confidence := by
    simp only [DomainSearchDocument.ofProjection, List.mem_map, List.mem_insertionSort]
    exact ⟨_, ⟨technology, member, rfl⟩, rfl⟩
  change _ ≤ (((DomainSearchDocument.ofProjection projection).technologies.map
    SearchTechnologyDocument.confidence).max?).getD 0
  cases found : ((DomainSearchDocument.ofProjection projection).technologies.map
      SearchTechnologyDocument.confidence).max? with
  | none =>
      rw [List.max?_eq_none_iff] at found
      rw [found] at inConfidences
      cases inConfidences
  | some most => exact (List.max?_eq_some_iff.mp found).2 _ inConfidences

theorem maxConfidence_le {most : Nat}
    (bounded : ∀ technology ∈ projection.technologies, technology.confidence ≤ most) :
    (DomainSearchDocument.ofProjection projection).maxConfidence ≤ most := by
  change (((DomainSearchDocument.ofProjection projection).technologies.map
    SearchTechnologyDocument.confidence).max?).getD 0 ≤ most
  cases found : ((DomainSearchDocument.ofProjection projection).technologies.map
      SearchTechnologyDocument.confidence).max? with
  | none => exact Nat.zero_le _
  | some largest =>
      have member := (List.max?_eq_some_iff.mp found).1
      simp only [DomainSearchDocument.ofProjection, List.mem_map, List.mem_insertionSort] at member
      obtain ⟨_, ⟨technology, inProjection, rfl⟩, rfl⟩ := member
      exact bounded technology inProjection

end Indexed

section Accepted

variable {parameters : List (Text × Text)} {query : DomainSearchQuery}

theorem crawledSinceOf_seconds {requested : Option Int} {since : Time}
    (read : crawledSinceOf requested = .ok (some since)) :
    ∃ seconds : Int, since = seconds * 1000000 ∧ -2 ^ 63 ≤ seconds ∧ seconds < 2 ^ 63 := by
  cases requested with
  | none => cases read
  | some seconds =>
      obtain ⟨time, found, isSome⟩ := map_eq_ok.mp read
      rw [orError_eq_ok] at found
      unfold fromUnixTimestamp at found
      dsimp only at found
      split at found
      · rename_i inRange
        have same : since = seconds * 1000000 := by
          rw [← Option.some.inj isSome, ← Option.some.inj found]
        unfold offsetDateTimeInRange at inRange
        rw [Bool.and_eq_true, decide_eq_true_eq, decide_eq_true_eq] at inRange
        have lower : -377705116800000000 ≤ seconds * 1000000 := inRange.1
        have upper : seconds * 1000000 ≤ 253402300799999999 := inRange.2
        exact ⟨seconds, same, by omega, by omega⟩
      · cases found

/-- The recency of an accepted query is a whole second that a date can have. -/
theorem crawledSince_seconds (accepted : searchDomains parameters = .ok query) {since : Time}
    (present : query.crawledSince = some since) :
    ∃ seconds : Int, since = seconds * 1000000 ∧ -2 ^ 63 ≤ seconds ∧ seconds < 2 ^ 63 := by
  unfold searchDomains at accepted
  obtain ⟨request, _, accepted⟩ := bind_eq_ok.mp accepted
  obtain ⟨limit, _, accepted⟩ := bind_eq_ok.mp accepted
  obtain ⟨_, _, accepted⟩ := bind_eq_ok.mp accepted
  obtain ⟨sort, _, accepted⟩ := bind_eq_ok.mp accepted
  obtain ⟨_, _, accepted⟩ := bind_eq_ok.mp accepted
  obtain ⟨technologies, _, accepted⟩ := bind_eq_ok.mp accepted
  obtain ⟨categories, _, accepted⟩ := bind_eq_ok.mp accepted
  obtain ⟨countries, _, accepted⟩ := bind_eq_ok.mp accepted
  obtain ⟨crawled, read, accepted⟩ := bind_eq_ok.mp accepted
  have same : crawled = some since := by
    rw [← present, ← Except.ok.inj accepted]
  rw [same] at read
  exact crawledSinceOf_seconds read

theorem unixTimestamp_le_iff {seconds : Int} (time : Time) :
    unixTimestamp (seconds * 1000000) ≤ unixTimestamp time ↔ seconds * 1000000 ≤ time := by
  unfold unixTimestamp
  rw [Int.mul_ediv_cancel _ (by decide), Int.le_ediv_iff_mul_le (by decide)]

/-- Every requested country would have to be the document's. -/
structure DomainSearchQuery.Demands (query : DomainSearchQuery)
    (document : DomainSearchDocument) : Prop where
  technologies : ∀ slug ∈ query.technologySlugs, slug ∈ document.technologySlugs
  categories : ∀ slug ∈ query.categorySlugs, slug ∈ document.categorySlugs
  country : ∀ code ∈ query.countryCodes, document.countryCode = some code
  confidence : ∀ minimum, query.minConfidence = some minimum →
    minimum.toNat ≤ document.maxConfidence
  recency : ∀ since, query.crawledSince = some since →
    ∃ crawled, document.lastCrawledAt = some crawled ∧ since ≤ crawled

theorem all_equalsEntry (document : DomainSearchDocument) (field : FilterField)
    (values : List Text) :
    document.satisfies (values.map (equalsEntry field)) = true ↔
      ∀ value ∈ values, value ∈ document.strings field := by
  unfold DomainSearchDocument.satisfies
  simp only [List.all_map, List.all_eq_true, Function.comp_apply, readFilter_equalsEntry,
    Option.any_some, DomainSearchDocument.meets, List.contains_iff_mem]

theorem satisfies_atLeastEntry (document : DomainSearchDocument) (field : FilterField)
    {bound : Int} (bounds : -2 ^ 63 ≤ bound ∧ bound < 2 ^ 63) :
    document.satisfies [atLeastEntry field bound] = true ↔
      ∃ value, document.number field = some value ∧ bound ≤ value := by
  unfold DomainSearchDocument.satisfies
  simp only [List.all_cons, List.all_nil, Bool.and_true, readFilter_atLeastEntry field bounds,
    Option.any_some, DomainSearchDocument.meets, Option.any_eq_true, decide_eq_true_eq]

theorem satisfies_append (document : DomainSearchDocument) (front back : List Text) :
    document.satisfies (front ++ back) = (document.satisfies front && document.satisfies back) :=
  List.all_append

theorem satisfies_recency (accepted : searchDomains parameters = .ok query)
    (projection : SearchDomainProjection) :
    (DomainSearchDocument.ofProjection projection).satisfies (query.crawledSince.map fun since =>
        atLeastEntry .lastCrawledAtUnix (unixTimestamp since)).toList = true ↔
      ∀ since, query.crawledSince = some since →
        ∃ crawled, projection.domain.lastCrawledAt = some crawled ∧ since ≤ crawled := by
  cases present : query.crawledSince with
  | none => simp [DomainSearchDocument.satisfies]
  | some since =>
      obtain ⟨seconds, rfl, bounds⟩ := crawledSince_seconds accepted present
      have whole : unixTimestamp (seconds * 1000000) = seconds :=
        Int.mul_ediv_cancel _ (by decide)
      rw [Option.map_some, Option.toList_some,
        satisfies_atLeastEntry _ _ (by rw [whole]; exact bounds)]
      change (∃ value, projection.domain.lastCrawledAt.map unixTimestamp = some value ∧ _) ↔ _
      cases projection.domain.lastCrawledAt with
      | none => simp
      | some crawled => simp [unixTimestamp_le_iff]

theorem satisfies_confidence (document : DomainSearchDocument) (minimum : Option UInt8) :
    document.satisfies
        (minimum.map fun minimum => atLeastEntry .maxConfidence minimum.toNat).toList = true ↔
      ∀ least, minimum = some least → least.toNat ≤ document.maxConfidence := by
  cases minimum with
  | none => simp [DomainSearchDocument.satisfies]
  | some least =>
      have small := least.toNat_lt
      rw [Option.map_some, Option.toList_some,
        satisfies_atLeastEntry _ _ (by constructor <;> omega)]
      simp [DomainSearchDocument.number]

/-- What the list that `search` sends means. -/
theorem satisfies_filters (accepted : searchDomains parameters = .ok query)
    (projection : SearchDomainProjection) :
    (DomainSearchDocument.ofProjection projection).satisfies query.filters = true ↔
      query.Demands (.ofProjection projection) := by
  unfold DomainSearchQuery.filters
  simp only [satisfies_append, Bool.and_eq_true, all_equalsEntry, satisfies_confidence]
  rw [satisfies_recency accepted]
  constructor
  · rintro ⟨⟨⟨⟨technologies, categories⟩, country⟩, recency⟩, confidence⟩
    refine ⟨technologies, categories, ?_, confidence, recency⟩
    intro code requested
    exact Option.mem_toList.mp (country code requested)
  · intro demands
    refine ⟨⟨⟨⟨demands.technologies, demands.categories⟩, ?_⟩, demands.recency⟩,
      demands.confidence⟩
    intro code requested
    exact Option.mem_toList.mpr (demands.country code requested)

end Accepted

section Countries

variable {parameters : List (Text × Text)} {query : DomainSearchQuery}

theorem demands_iff_wants {document : DomainSearchDocument}
    (same : ∀ left ∈ query.countryCodes, ∀ right ∈ query.countryCodes, left = right) :
    query.Demands document ↔ query.Wants document := by
  constructor
  · intro demands
    refine ⟨demands.technologies, demands.categories, ?_, demands.confidence, demands.recency⟩
    intro some
    obtain ⟨code, requested⟩ := List.exists_mem_of_ne_nil _ some
    exact ⟨code, requested, demands.country code requested⟩
  · intro wants
    refine ⟨wants.technologies, wants.categories, ?_, wants.confidence, wants.recency⟩
    intro code requested
    obtain ⟨other, alsoRequested, country⟩ := wants.country (List.ne_nil_of_mem requested)
    rw [country, same other alsoRequested code requested]

/-- A projection that a query wants: it has each technology and each category
asked for, and one of the countries. -/
def DomainSearchQuery.sample (query : DomainSearchQuery) : SearchDomainProjection :=
  let technology (slug category : Text) : SearchTechnologyProjection := ⟨slug, category, 100, 0⟩
  { domainId := 0
    domain := ⟨"example.test".toList, query.crawledSince, query.countryCodes.head?⟩
    technologies := technology "technology".toList "category".toList ::
      query.technologySlugs.map (technology · "category".toList) ++
        query.categorySlugs.map (technology "technology".toList) }

theorem sample_confidence :
    ∀ technology ∈ query.sample.technologies, technology.confidence = 100 := by
  intro technology member
  simp only [DomainSearchQuery.sample, List.cons_append, List.mem_cons, List.mem_append,
    List.mem_map] at member
  obtain rfl | ⟨_, _, rfl⟩ | ⟨_, _, rfl⟩ := member <;> rfl

theorem wants_sample (reachable : ∀ minimum, query.minConfidence = some minimum →
    minimum.toNat ≤ 100) : query.Wants (.ofProjection query.sample) := by
  refine ⟨?_, ?_, ?_, ?_, ?_⟩
  · intro slug requested
    rw [mem_technologySlugs]
    refine ⟨⟨slug, "category".toList, 100, 0⟩, ?_, rfl⟩
    simp only [DomainSearchQuery.sample, List.cons_append, List.mem_cons, List.mem_append,
      List.mem_map]
    exact Or.inr (Or.inl ⟨slug, requested, rfl⟩)
  · intro slug requested
    rw [mem_categorySlugs]
    refine ⟨⟨"technology".toList, slug, 100, 0⟩, ?_, rfl⟩
    simp only [DomainSearchQuery.sample, List.cons_append, List.mem_cons, List.mem_append,
      List.mem_map]
    exact Or.inr (Or.inr ⟨slug, requested, rfl⟩)
  · intro some
    obtain ⟨code, rest, found⟩ := List.exists_cons_of_ne_nil some
    refine ⟨code, ?_, ?_⟩
    · rw [found]
      exact List.mem_cons_self
    · change query.countryCodes.head? = _
      rw [found, List.head?_cons]
  · intro minimum asked
    have first := List.mem_cons_self (a := (⟨"technology".toList, "category".toList, 100, 0⟩ :
      SearchTechnologyProjection)) (l := query.technologySlugs.map
        (fun slug => ⟨slug, "category".toList, 100, 0⟩) ++
          query.categorySlugs.map fun slug => ⟨"technology".toList, slug, 100, 0⟩)
    exact Nat.le_trans (reachable minimum asked) (le_maxConfidence query.sample first)
  · intro since asked
    exact ⟨since, asked, Int.le_refl since⟩

/-- A document has one country and the entries are a conjunction, so the filters
mean what the query asks exactly when no two different countries are asked for,
or when no confidence can suffice. -/
theorem filters_exact_iff (accepted : searchDomains parameters = .ok query) :
    (∀ projection : SearchDomainProjection,
        (∀ technology ∈ projection.technologies, technology.confidence ≤ 100) →
        ((DomainSearchDocument.ofProjection projection).satisfies query.filters = true ↔
          query.Wants (.ofProjection projection))) ↔
      (∀ left ∈ query.countryCodes, ∀ right ∈ query.countryCodes, left = right) ∨
        ∃ minimum, query.minConfidence = some minimum ∧ 100 < minimum.toNat := by
  constructor
  · intro exact
    by_cases reachable : ∃ minimum, query.minConfidence = some minimum ∧ 100 < minimum.toNat
    · exact Or.inr reachable
    · left
      have wants : query.Wants (.ofProjection query.sample) := by
        apply wants_sample
        intro minimum asked
        by_contra above
        exact reachable ⟨minimum, asked, by omega⟩
      have bounded : ∀ technology ∈ query.sample.technologies, technology.confidence ≤ 100 :=
        fun technology member => Nat.le_of_eq (sample_confidence technology member)
      have demands := (satisfies_filters accepted query.sample).mp
        ((exact query.sample bounded).mpr wants)
      intro left leftRequested right rightRequested
      have isLeft := demands.country left leftRequested
      have isRight := demands.country right rightRequested
      exact Option.some.inj (isLeft.symm.trans isRight)
  · rintro (same | ⟨minimum, asked, above⟩) projection bounded
    · rw [satisfies_filters accepted, demands_iff_wants same]
    · have below := maxConfidence_le projection bounded
      rw [satisfies_filters accepted]
      constructor
      · intro demands
        have reached := demands.confidence minimum asked
        omega
      · intro wants
        have reached := wants.confidence minimum asked
        omega

def oneCountry : List (Text × Text) :=
  [("technology".toList, "react".toList), ("country".toList, "NG".toList),
    ("min_confidence".toList, "80".toList)]

theorem filters_exact_oneCountry :
    ∃ query, searchDomains oneCountry = .ok query ∧
      ∀ projection : SearchDomainProjection,
        (∀ technology ∈ projection.technologies, technology.confidence ≤ 100) →
        ((DomainSearchDocument.ofProjection projection).satisfies query.filters = true ↔
          query.Wants (.ofProjection projection)) := by
  have accepted : searchDomains oneCountry =
      .ok ⟨none, ["react".toList], [], ["NG".toList], none, some 80, 50, 0, .relevance⟩ := by
    decide +kernel
  refine ⟨_, accepted, ?_⟩
  rw [filters_exact_iff accepted]
  left
  intro left leftRequested right rightRequested
  rw [List.mem_singleton.mp leftRequested, List.mem_singleton.mp rightRequested]

def twoCountries : List (Text × Text) :=
  [("country".toList, "NG".toList), ("country".toList, "US".toList)]

/-- A document of one of two requested countries does not satisfy the filters. -/
theorem filters_twoCountries :
    ∃ query, searchDomains twoCountries = .ok query ∧
      ∃ projection : SearchDomainProjection,
        projection.domain.countryCode = some "NG".toList ∧
        query.Wants (.ofProjection projection) ∧
        (DomainSearchDocument.ofProjection projection).satisfies query.filters = false := by
  refine ⟨⟨none, [], [], ["NG".toList, "US".toList], none, none, 50, 0, .relevance⟩, ?_,
    ⟨0, ⟨"example.test".toList, none, some "NG".toList⟩, []⟩, rfl, ?_, ?_⟩
  · decide +kernel
  · refine ⟨?_, ?_, ?_, ?_, ?_⟩
    · exact fun _ requested => absurd requested List.not_mem_nil
    · exact fun _ requested => absurd requested List.not_mem_nil
    · exact fun _ => ⟨"NG".toList, List.mem_cons_self, rfl⟩
    · exact fun _ asked => by cases asked
    · exact fun _ asked => by cases asked
  · decide +kernel

end Countries

end TechAtlas.Search
