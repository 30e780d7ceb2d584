import TechAtlas.Acquisition.Address
import TechAtlas.Library.Table
import TechAtlas.Parser

set_option autoImplicit false

/- `parse`: what was captured of a page as sorted, normalized evidence, and which
sources could be read. -/
namespace TechAtlas.Parser

open Library TechAtlas.Acquisition

section Bundle

inductive ArtifactInput (α : Type)
  | captured (value : α)
  | unavailable (reason : UnavailableReason)
  deriving DecidableEq, Repr

structure DnsArtifact where
  queriedName : Text
  addresses : List IpAddr
  deriving DecidableEq, Repr

structure TlsArtifact where
  protocol : Option Text
  cipherSuite : Option Text
  certificateSubject : Option Text
  certificateIssuer : Option Text
  subjectAlternativeNames : List Text
  deriving DecidableEq, Repr

structure ArtifactBundle where
  html : ArtifactInput (List UInt8)
  headers : ArtifactInput (List (Text × Text))
  dns : ArtifactInput DnsArtifact
  tls : ArtifactInput TlsArtifact
  deriving DecidableEq, Repr

abbrev Attributes := List (Text × Text)

/-- What is selected of a document: the text of its first `title` element, and the
attributes of its `meta` and `script` elements in document order. -/
structure HtmlDocument where
  title : Option Text
  metaElements : List Attributes
  scriptElements : List Attributes
  deriving DecidableEq, Repr

/-- The `scraper` crate. -/
structure HtmlCrate where
  parseDocument : Text → HtmlDocument

end Bundle

section Normalization

def normalized (value : Text) : Option Text :=
  let value := joinWords (splitWhitespace value)
  if value.isEmpty then none else some value

def normalizedKey (value : Text) : Option Text := (normalized value).map asciiLowercase

def normalizedHostname (value : Text) : Option Text := do
  let value ← normalized value
  let value := asciiLowercase (value.rdropWhile (· == '.'))
  if value.isEmpty || value.any isWhitespace then none else some value

/-- The names whose values are never read. -/
def isSensitiveHeader (name : Text) : Bool :=
  [ "authorization", "proxy-authorization", "cookie", "set-cookie", "set-cookie2", "x-api-key",
    "x-auth-token", "x-amz-security-token" ].any (fun known => name == known.toList) ||
    containsText "token".toList name || containsText "secret".toList name ||
    name == "api-key".toList || "-key".toList.isSuffixOf name

end Normalization

section Sources

/-- What reading one input adds to the evidence and to the availability. -/
structure Contribution where
  evidence : List NormalizedEvidence
  availability : List (ArtifactSource × SignalAvailability)
  deriving DecidableEq, Repr

def Contribution.unavailable (sources : List ArtifactSource) (reason : UnavailableReason) :
    Contribution where
  evidence := []
  availability := sources.map fun source => (source, .unavailable reason)

def titleItem (title : Text) : Option NormalizedEvidence :=
  (normalized title).map fun title => ⟨.html, "title".toList, title⟩

def metaItem (attributes : Attributes) : Option NormalizedEvidence := do
  let name ← ((attributes.lookup "name".toList).or (attributes.lookup "property".toList)).or
    (attributes.lookup "http-equiv".toList)
  let key ← normalizedKey name
  let content ← attributes.lookup "content".toList
  let value ← normalized content
  some ⟨.html, "meta.".toList ++ key, value⟩

def scriptItem (attributes : Attributes) : Option NormalizedEvidence := do
  let src ← attributes.lookup "src".toList
  let source ← normalized src
  some ⟨.script, "src".toList, source⟩

def parseHtml (crate : HtmlCrate) : ArtifactInput (List UInt8) → Contribution
  | .unavailable reason => .unavailable [.html, .script] reason
  | .captured bytes =>
      match decodeUtf8 bytes with
      | none => .unavailable [.html, .script] .invalid
      | some html =>
          let document := crate.parseDocument html
          { evidence := (document.title.bind titleItem).toList ++
              document.metaElements.filterMap metaItem ++
              document.scriptElements.filterMap scriptItem
            availability := [(.html, .available), (.script, .available)] }

def headerItem (header : Text × Text) : Option NormalizedEvidence := do
  let name ← normalizedKey header.1
  if isSensitiveHeader name then none
  let value ← normalized header.2
  some ⟨.header, name, value⟩

def parseHeaders : ArtifactInput (List (Text × Text)) → Contribution
  | .unavailable reason => .unavailable [.header] reason
  | .captured headers =>
      { evidence := headers.filterMap headerItem
        availability := [(.header, .available)] }

def parseDns : ArtifactInput DnsArtifact → Contribution
  | .unavailable reason => .unavailable [.dns] reason
  | .captured dns =>
      match normalizedHostname dns.queriedName with
      | none => .unavailable [.dns] .invalid
      | some name =>
          { evidence := ⟨.dns, "queried_name".toList, name⟩ ::
              dns.addresses.map fun address => ⟨.dns, "address".toList, address.display⟩
            availability := [(.dns, .available)] }

def tlsItem (fact : String × Option Text) : Option NormalizedEvidence :=
  (fact.2.bind normalized).map fun value => ⟨.tls, fact.1.toList, value⟩

def alternativeNameItem (name : Text) : Option NormalizedEvidence :=
  (normalizedHostname name).map fun name => ⟨.tls, "subject_alternative_name".toList, name⟩

def TlsArtifact.facts (tls : TlsArtifact) : List (String × Option Text) :=
  [ ("protocol", tls.protocol), ("cipher_suite", tls.cipherSuite),
    ("certificate_subject", tls.certificateSubject),
    ("certificate_issuer", tls.certificateIssuer) ]

/-- A certificate without a usable fact is an invalid one. -/
def parseTls : ArtifactInput TlsArtifact → Contribution
  | .unavailable reason => .unavailable [.tls] reason
  | .captured tls =>
      let evidence := tls.facts.filterMap tlsItem ++
        tls.subjectAlternativeNames.filterMap alternativeNameItem
      { evidence := evidence
        availability :=
          [(.tls, if evidence.isEmpty then .unavailable .invalid else .available)] }

end Sources

section Parse

/-- The declaration order of the sources. -/
def ArtifactSource.rank : ArtifactSource → Nat
  | .html => 0
  | .header => 1
  | .script => 2
  | .dns => 3
  | .tls => 4

/-- The derived order: by source, then by key, then by value. -/
def NormalizedEvidence.sortKey (item : NormalizedEvidence) : Nat ×ₗ Text ×ₗ Text :=
  toLex (item.source.rank, toLex (item.key, item.value))

def NormalizedEvidence.le (left right : NormalizedEvidence) : Bool :=
  decide (left.sortKey ≤ right.sortKey)

def contributions (crate : HtmlCrate) (input : ArtifactBundle) : List Contribution :=
  [parseHtml crate input.html, parseHeaders input.headers, parseDns input.dns, parseTls input.tls]

/-- The evidence is sorted and holds no item twice. -/
def parse (crate : HtmlCrate) (input : ArtifactBundle) : ParsedArtifacts where
  evidence :=
    (((contributions crate input).flatMap Contribution.evidence).insertionSort
      fun left right => left.le right).destutter (· ≠ ·)
  availabilityOf := (contributions crate input).flatMap Contribution.availability

end Parse

section Order

theorem ArtifactSource.rank_injective {left right : ArtifactSource}
    (same : left.rank = right.rank) : left = right := by
  cases left <;> cases right <;> first | rfl | cases same

theorem NormalizedEvidence.le_iff {left right : NormalizedEvidence} :
    left.le right = true ↔ left.sortKey ≤ right.sortKey := decide_eq_true_iff

instance : IsTrans NormalizedEvidence fun left right => left.le right = true where
  trans _ _ _ := by
    simp only [NormalizedEvidence.le_iff]
    exact le_trans

instance : Std.Total fun left right : NormalizedEvidence => left.le right = true where
  total _ _ := by
    simp only [NormalizedEvidence.le_iff]
    exact le_total _ _

instance : Std.Antisymm fun left right : NormalizedEvidence => left.le right = true where
  antisymm left right := by
    simp only [NormalizedEvidence.le_iff]
    intro forth back
    have same := le_antisymm forth back
    simp only [NormalizedEvidence.sortKey, EmbeddingLike.apply_eq_iff_eq, Prod.mk.injEq] at same
    rcases left with ⟨_, _, _⟩
    rcases right with ⟨_, _, _⟩
    simp only [NormalizedEvidence.mk.injEq]
    exact ⟨ArtifactSource.rank_injective same.1, same.2⟩

end Order

section Coverage

/-- The evidence is of these sources, and they are the ones it tells the
availability of. -/
structure Contribution.Covers (contribution : Contribution) (sources : List ArtifactSource) :
    Prop where
  evidence : ∀ item ∈ contribution.evidence, item.source ∈ sources
  availability : contribution.availability.map Prod.fst = sources

theorem Contribution.unavailable_covers (sources : List ArtifactSource)
    (reason : UnavailableReason) : (Contribution.unavailable sources reason).Covers sources := by
  constructor
  · intro item member
    cases member
  · rw [Contribution.unavailable, List.map_map]
    exact List.map_id _

theorem titleItem_source {title : Text} {item : NormalizedEvidence}
    (found : titleItem title = some item) : item.source = .html := by
  obtain ⟨value, _, rfl⟩ := Option.map_eq_some_iff.mp found
  rfl

theorem metaItem_source {attributes : Attributes} {item : NormalizedEvidence}
    (found : metaItem attributes = some item) : item.source = .html := by
  obtain ⟨name, _, found⟩ := Option.bind_eq_some_iff.mp found
  obtain ⟨key, _, found⟩ := Option.bind_eq_some_iff.mp found
  obtain ⟨content, _, found⟩ := Option.bind_eq_some_iff.mp found
  obtain ⟨value, _, found⟩ := Option.bind_eq_some_iff.mp found
  rw [← Option.some.inj found]

theorem scriptItem_source {attributes : Attributes} {item : NormalizedEvidence}
    (found : scriptItem attributes = some item) : item.source = .script := by
  obtain ⟨src, _, found⟩ := Option.bind_eq_some_iff.mp found
  obtain ⟨source, _, found⟩ := Option.bind_eq_some_iff.mp found
  rw [← Option.some.inj found]

theorem parseHtml_covers (crate : HtmlCrate) (input : ArtifactInput (List UInt8)) :
    (parseHtml crate input).Covers [.html, .script] := by
  cases input with
  | unavailable reason => exact Contribution.unavailable_covers _ reason
  | captured bytes =>
      dsimp only [parseHtml]
      cases decodeUtf8 bytes with
      | none => exact Contribution.unavailable_covers _ .invalid
      | some html =>
          refine ⟨?_, rfl⟩
          intro item member
          simp only [List.mem_append, Option.mem_toList, List.mem_filterMap] at member
          rcases member with (found | ⟨attributes, _, found⟩) | ⟨attributes, _, found⟩
          · obtain ⟨title, _, found⟩ := Option.bind_eq_some_iff.mp found
            rw [titleItem_source found]
            exact List.mem_cons_self
          · rw [metaItem_source found]
            exact List.mem_cons_self
          · rw [scriptItem_source found]
            exact List.mem_cons_of_mem _ List.mem_cons_self

theorem headerItem_source {header : Text × Text} {item : NormalizedEvidence}
    (found : headerItem header = some item) : item.source = .header := by
  obtain ⟨name, _, found⟩ := Option.bind_eq_some_iff.mp found
  split at found
  · cases found
  · obtain ⟨value, _, found⟩ := Option.bind_eq_some_iff.mp found
    rw [← Option.some.inj found]

theorem parseHeaders_covers (input : ArtifactInput (List (Text × Text))) :
    (parseHeaders input).Covers [.header] := by
  cases input with
  | unavailable reason => exact Contribution.unavailable_covers _ reason
  | captured headers =>
      refine ⟨?_, rfl⟩
      intro item member
      obtain ⟨header, _, found⟩ := List.mem_filterMap.mp member
      rw [headerItem_source found]
      exact List.mem_cons_self

theorem parseDns_covers (input : ArtifactInput DnsArtifact) : (parseDns input).Covers [.dns] := by
  cases input with
  | unavailable reason => exact Contribution.unavailable_covers _ reason
  | captured dns =>
      dsimp only [parseDns]
      cases normalizedHostname dns.queriedName with
      | none => exact Contribution.unavailable_covers _ .invalid
      | some name =>
          refine ⟨?_, rfl⟩
          intro item member
          rcases List.mem_cons.mp member with rfl | address
          · exact List.mem_cons_self
          · obtain ⟨address, _, rfl⟩ := List.mem_map.mp address
            exact List.mem_cons_self

theorem parseTls_covers (input : ArtifactInput TlsArtifact) : (parseTls input).Covers [.tls] := by
  cases input with
  | unavailable reason => exact Contribution.unavailable_covers _ reason
  | captured tls =>
      refine ⟨?_, rfl⟩
      intro item member
      rcases List.mem_append.mp member with fact | name
      · obtain ⟨fact, _, found⟩ := List.mem_filterMap.mp fact
        obtain ⟨value, _, rfl⟩ := Option.map_eq_some_iff.mp found
        exact List.mem_cons_self
      · obtain ⟨name, _, found⟩ := List.mem_filterMap.mp name
        obtain ⟨value, _, rfl⟩ := Option.map_eq_some_iff.mp found
        exact List.mem_cons_self

theorem Contribution.Covers.lookup_eq_none {contribution : Contribution}
    {sources : List ArtifactSource} (covers : contribution.Covers sources)
    {source : ArtifactSource} (other : source ∉ sources) :
    contribution.availability.lookup source = none := by
  rw [List.lookup_eq_none_iff]
  intro entry member
  rw [bne_iff_ne]
  intro same
  rw [same, ← covers.availability] at other
  exact other (List.mem_map_of_mem member)

end Coverage

section Agreement

variable (crate : HtmlCrate)

/-- The sources that a stored snapshot still has. -/
def ArtifactSource.isPage : ArtifactSource → Bool
  | .html | .header | .script => true
  | .dns | .tls => false

theorem mem_parse {input : ArtifactBundle} {item : NormalizedEvidence} :
    item ∈ (parse crate input).evidence ↔
      item ∈ (parseHtml crate input.html).evidence ∨ item ∈ (parseHeaders input.headers).evidence ∨
        item ∈ (parseDns input.dns).evidence ∨ item ∈ (parseTls input.tls).evidence := by
  simp only [parse, mem_destutter_insertionSort]
  simp [contributions]

theorem availability_parse (input : ArtifactBundle) (source : ArtifactSource) :
    (parse crate input).availability source =
      (((parseHtml crate input.html).availability.lookup source).or
        (((parseHeaders input.headers).availability.lookup source).or
          (((parseDns input.dns).availability.lookup source).or
            ((parseTls input.tls).availability.lookup source)))).getD
        (.unavailable .notCaptured) := by
  simp [ParsedArtifacts.availability, parse, contributions, List.lookup_append]

variable {crate} {first second : ArtifactBundle} (html : first.html = second.html)
  (headers : first.headers = second.headers)

include html headers

/-- Bundles with the same page have the same evidence of it. -/
theorem filter_parse {p : NormalizedEvidence → Bool}
    (page : ∀ item, p item = true → item.source.isPage = true) :
    (parse crate first).evidence.filter p = (parse crate second).evidence.filter p := by
  apply filter_destutter_insertionSort
  intro item kind
  have ofPage := page item kind
  have notDns : ∀ input : ArtifactInput DnsArtifact, item ∉ (parseDns input).evidence := by
    intro input member
    have source := (parseDns_covers input).evidence item member
    rw [List.mem_singleton.mp source] at ofPage
    cases ofPage
  have notTls : ∀ input : ArtifactInput TlsArtifact, item ∉ (parseTls input).evidence := by
    intro input member
    have source := (parseTls_covers input).evidence item member
    rw [List.mem_singleton.mp source] at ofPage
    cases ofPage
  simp [contributions, html, headers, notDns, notTls]

theorem availability_page {source : ArtifactSource} (page : source.isPage = true) :
    (parse crate first).availability source = (parse crate second).availability source := by
  have notDns : source ∉ [ArtifactSource.dns] := by
    intro member
    rw [List.mem_singleton.mp member] at page
    cases page
  have notTls : source ∉ [ArtifactSource.tls] := by
    intro member
    rw [List.mem_singleton.mp member] at page
    cases page
  rw [availability_parse, availability_parse, html, headers]
  simp only [(parseDns_covers _).lookup_eq_none notDns, (parseTls_covers _).lookup_eq_none notTls]

/-- Without DNS and TLS nothing is found that is not found with them. -/
theorem parse_subset {reason : UnavailableReason} (dns : first.dns = .unavailable reason)
    (tls : first.tls = .unavailable reason) :
    ∀ item ∈ (parse crate first).evidence, item ∈ (parse crate second).evidence := by
  intro item member
  rw [mem_parse, html, headers, dns, tls] at member
  rw [mem_parse]
  rcases member with page | header | absent | absent
  · exact Or.inl page
  · exact Or.inr (Or.inl header)
  · cases absent
  · cases absent

end Agreement

section Unavailable

theorem availability_network {crate : HtmlCrate} {input : ArtifactBundle}
    {reason : UnavailableReason} (dns : input.dns = .unavailable reason)
    (tls : input.tls = .unavailable reason) {source : ArtifactSource}
    (network : source.isPage = false) :
    (parse crate input).availability source = .unavailable reason := by
  rw [availability_parse, dns, tls]
  cases source with
  | html => cases network
  | header => cases network
  | script => cases network
  | dns =>
      rw [(parseHtml_covers crate input.html).lookup_eq_none (by decide),
        (parseHeaders_covers input.headers).lookup_eq_none (by decide)]
      rfl
  | tls =>
      rw [(parseHtml_covers crate input.html).lookup_eq_none (by decide),
        (parseHeaders_covers input.headers).lookup_eq_none (by decide)]
      rfl

/-- Evidence that a stored snapshot lacks comes from DNS or TLS. -/
theorem network_evidence {crate : HtmlCrate} {input : ArtifactBundle} {item : NormalizedEvidence}
    (member : item ∈ (parse crate input).evidence) (network : item.source.isPage = false) :
    item ∈ (parseDns input.dns).evidence ∨ item ∈ (parseTls input.tls).evidence := by
  rcases (mem_parse crate).mp member with page | header | rest
  · have source := (parseHtml_covers crate input.html).evidence item page
    simp only [List.mem_cons, List.not_mem_nil, or_false] at source
    rcases source with source | source <;> rw [source] at network <;> cases network
  · have source := (parseHeaders_covers input.headers).evidence item header
    rw [List.mem_singleton.mp source] at network
    cases network
  · exact rest

end Unavailable

section Bounds

theorem normalized_bounded {value text : Text} (found : normalized value = some text) :
    trim text ≠ [] ∧ text.length ≤ (trim value).length := by
  dsimp only [normalized] at found
  split at found
  · cases found
  · rename_i present
    rw [← Option.some.inj found]
    refine ⟨trim_joinWords ?_, joinWords_splitWhitespace_length value⟩
    intro absent
    rw [absent] at present
    exact present rfl

theorem normalizedHostname_bounded {value text : Text}
    (found : normalizedHostname value = some text) :
    trim text ≠ [] ∧ text.length ≤ (trim value).length := by
  obtain ⟨joined, own, found⟩ := Option.bind_eq_some_iff.mp found
  dsimp only at found
  split at found
  · cases found
  · rename_i kept
    simp only [Bool.or_eq_true, List.isEmpty_iff, List.any_eq_true, not_or, not_exists,
      not_and, Bool.not_eq_true] at kept
    rw [← Option.some.inj found]
    constructor
    · obtain ⟨c, member⟩ := List.exists_mem_of_ne_nil _ kept.1
      exact trim_ne_nil member (kept.2 c member)
    · have shorter := (List.rdropWhile_prefix (fun c => c == '.') joined).length_le
      rw [asciiLowercase, List.length_map]
      exact le_trans shorter (normalized_bounded own).2

theorem normalizedKey_present {value text : Text} (found : normalizedKey value = some text) :
    trim text ≠ [] := by
  obtain ⟨words, own, rfl⟩ := Option.map_eq_some_iff.mp found
  exact trim_asciiLowercase (normalized_bounded own).1

structure NormalizedEvidence.IsPresent (item : NormalizedEvidence) : Prop where
  key : trim item.key ≠ []
  value : trim item.value ≠ []

/-- The keys that the parser gives evidence itself. -/
theorem parserKey_present : ∀ key ∈ ["title", "src", "queried_name", "address", "protocol",
    "cipher_suite", "certificate_subject", "certificate_issuer", "subject_alternative_name"],
    trim key.toList ≠ [] := by
  decide +kernel

theorem titleItem_present {title : Text} {item : NormalizedEvidence}
    (found : titleItem title = some item) : item.IsPresent := by
  obtain ⟨value, own, rfl⟩ := Option.map_eq_some_iff.mp found
  exact ⟨parserKey_present "title" (by simp), (normalized_bounded own).1⟩

theorem metaItem_present {attributes : Attributes} {item : NormalizedEvidence}
    (found : metaItem attributes = some item) : item.IsPresent := by
  obtain ⟨name, _, found⟩ := Option.bind_eq_some_iff.mp found
  obtain ⟨key, _, found⟩ := Option.bind_eq_some_iff.mp found
  obtain ⟨content, _, found⟩ := Option.bind_eq_some_iff.mp found
  obtain ⟨value, own, found⟩ := Option.bind_eq_some_iff.mp found
  rw [← Option.some.inj found]
  refine ⟨?_, (normalized_bounded own).1⟩
  have first : 'm' ∈ "meta.".toList ++ key := List.mem_append_left key (by decide)
  exact trim_ne_nil first (by decide)

theorem scriptItem_present {attributes : Attributes} {item : NormalizedEvidence}
    (found : scriptItem attributes = some item) : item.IsPresent := by
  obtain ⟨src, _, found⟩ := Option.bind_eq_some_iff.mp found
  obtain ⟨source, own, found⟩ := Option.bind_eq_some_iff.mp found
  rw [← Option.some.inj found]
  exact ⟨parserKey_present "src" (by simp), (normalized_bounded own).1⟩

theorem headerItem_present {header : Text × Text} {item : NormalizedEvidence}
    (found : headerItem header = some item) : item.IsPresent := by
  obtain ⟨name, key, found⟩ := Option.bind_eq_some_iff.mp found
  split at found
  · cases found
  · obtain ⟨value, own, found⟩ := Option.bind_eq_some_iff.mp found
    rw [← Option.some.inj found]
    exact ⟨normalizedKey_present key, (normalized_bounded own).1⟩

theorem parseHtml_present {crate : HtmlCrate} {input : ArtifactInput (List UInt8)} :
    ∀ item ∈ (parseHtml crate input).evidence, item.IsPresent := by
  intro item member
  cases input with
  | unavailable reason => cases member
  | captured bytes =>
      dsimp only [parseHtml] at member
      cases decoded : decodeUtf8 bytes with
      | none =>
          rw [decoded] at member
          cases member
      | some html =>
          rw [decoded] at member
          simp only [List.mem_append, Option.mem_toList, List.mem_filterMap] at member
          rcases member with (found | ⟨attributes, _, found⟩) | ⟨attributes, _, found⟩
          · obtain ⟨title, _, found⟩ := Option.bind_eq_some_iff.mp found
            exact titleItem_present found
          · exact metaItem_present found
          · exact scriptItem_present found

theorem parseDns_present {input : ArtifactInput DnsArtifact} :
    ∀ item ∈ (parseDns input).evidence, item.IsPresent := by
  intro item member
  cases input with
  | unavailable reason => cases member
  | captured dns =>
      dsimp only [parseDns] at member
      cases found : normalizedHostname dns.queriedName with
      | none =>
          rw [found] at member
          cases member
      | some name =>
          rw [found] at member
          rcases List.mem_cons.mp member with rfl | inAddresses
          · exact ⟨parserKey_present "queried_name" (by simp), (normalizedHostname_bounded found).1⟩
          · obtain ⟨address, _, rfl⟩ := List.mem_map.mp inAddresses
            exact ⟨parserKey_present "address" (by simp), address.display_bounded.1⟩

theorem parseTls_present {input : ArtifactInput TlsArtifact} :
    ∀ item ∈ (parseTls input).evidence, item.IsPresent := by
  intro item member
  cases input with
  | unavailable reason => cases member
  | captured tls =>
      rcases List.mem_append.mp member with ofFact | ofName
      · obtain ⟨fact, inFacts, found⟩ := List.mem_filterMap.mp ofFact
        obtain ⟨text, own, rfl⟩ := Option.map_eq_some_iff.mp found
        obtain ⟨value, _, own⟩ := Option.bind_eq_some_iff.mp own
        refine ⟨parserKey_present fact.1 ?_, (normalized_bounded own).1⟩
        simp only [TlsArtifact.facts, List.mem_cons, List.not_mem_nil, or_false] at inFacts
        rcases inFacts with rfl | rfl | rfl | rfl <;> simp
      · obtain ⟨name, _, found⟩ := List.mem_filterMap.mp ofName
        obtain ⟨text, own, rfl⟩ := Option.map_eq_some_iff.mp found
        exact ⟨parserKey_present "subject_alternative_name" (by simp),
          (normalizedHostname_bounded own).1⟩

/-- No item of a parse has a blank key or a blank value. -/
theorem parse_present {crate : HtmlCrate} {input : ArtifactBundle} :
    ∀ item ∈ (parse crate input).evidence, item.IsPresent := by
  intro item member
  rcases (mem_parse crate).mp member with html | header | dns | tls
  · exact parseHtml_present item html
  · cases headers : input.headers with
    | unavailable reason =>
        rw [headers] at header
        cases header
    | captured values =>
        rw [headers] at header
        obtain ⟨value, _, found⟩ := List.mem_filterMap.mp header
        exact headerItem_present found
  · exact parseDns_present item dns
  · exact parseTls_present item tls

/-- A key of the parser's own and a value that is short and not blank. -/
structure NormalizedEvidence.IsShort (item : NormalizedEvidence) : Prop where
  key : trim item.key ≠ [] ∧ item.key.length ≤ 128
  value : trim item.value ≠ [] ∧ item.value.length ≤ 512

theorem parseDns_short {dns : DnsArtifact} (bounded : (trim dns.queriedName).length ≤ 512) :
    ∀ item ∈ (parseDns (.captured dns)).evidence, item.IsShort := by
  intro item member
  dsimp only [parseDns] at member
  cases found : normalizedHostname dns.queriedName with
  | none =>
      rw [found] at member
      cases member
  | some name =>
      rw [found] at member
      have queried : trim "queried_name".toList ≠ [] ∧ "queried_name".toList.length ≤ 128 := by
        decide
      have resolved : trim "address".toList ≠ [] ∧ "address".toList.length ≤ 128 := by decide
      rcases List.mem_cons.mp member with rfl | inAddresses
      · have own := normalizedHostname_bounded found
        exact ⟨queried, own.1, le_trans own.2 bounded⟩
      · obtain ⟨address, _, rfl⟩ := List.mem_map.mp inAddresses
        have own := address.display_bounded
        exact ⟨resolved, own.1, le_trans own.2 (by decide)⟩

theorem parseTls_short {tls : TlsArtifact}
    (facts : ∀ fact ∈ tls.facts, ∀ value ∈ fact.2, (trim value).length ≤ 512)
    (names : ∀ name ∈ tls.subjectAlternativeNames, (trim name).length ≤ 512) :
    ∀ item ∈ (parseTls (.captured tls)).evidence, item.IsShort := by
  intro item member
  have keys : ∀ key ∈ ["protocol", "cipher_suite", "certificate_subject", "certificate_issuer",
      "subject_alternative_name"], trim key.toList ≠ [] ∧ key.toList.length ≤ 128 := by
    decide +kernel
  rcases List.mem_append.mp member with ofFact | ofName
  · obtain ⟨fact, inFacts, found⟩ := List.mem_filterMap.mp ofFact
    obtain ⟨text, own, rfl⟩ := Option.map_eq_some_iff.mp found
    obtain ⟨value, present, own⟩ := Option.bind_eq_some_iff.mp own
    have bounded := normalized_bounded own
    refine ⟨keys fact.1 ?_, bounded.1, le_trans bounded.2 (facts fact inFacts value present)⟩
    simp only [TlsArtifact.facts, List.mem_cons, List.not_mem_nil, or_false] at inFacts
    rcases inFacts with rfl | rfl | rfl | rfl <;> simp
  · obtain ⟨name, inNames, found⟩ := List.mem_filterMap.mp ofName
    obtain ⟨text, own, rfl⟩ := Option.map_eq_some_iff.mp found
    have bounded := normalizedHostname_bounded own
    exact ⟨keys "subject_alternative_name" (by simp), bounded.1,
      le_trans bounded.2 (names name inNames)⟩

end Bounds

end TechAtlas.Parser
