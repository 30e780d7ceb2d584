import TechAtlas.Parser.Parse

set_option autoImplicit false

/- The evidence of a parse is in one form: sorted without repetition, with
collapsed values and lower case keys, from the sources that could be read. -/
namespace TechAtlas.Parser

open Library TechAtlas.Acquisition

section Usable

def TlsArtifact.hasFact (tls : TlsArtifact) : Bool :=
  tls.facts.any (fun fact => (fact.2.bind normalized).isSome) ||
    tls.subjectAlternativeNames.any fun name => (normalizedHostname name).isSome

/-- The source was captured, and what was captured of it is valid: bytes that are
UTF-8, a host name that is not blank, a certificate with a fact. -/
def ArtifactBundle.isUsable (input : ArtifactBundle) : ArtifactSource → Bool
  | .html | .script =>
      match input.html with
      | .captured bytes => (decodeUtf8 bytes).isSome
      | .unavailable _ => false
  | .header =>
      match input.headers with
      | .captured _ => true
      | .unavailable _ => false
  | .dns =>
      match input.dns with
      | .captured dns => (normalizedHostname dns.queriedName).isSome
      | .unavailable _ => false
  | .tls =>
      match input.tls with
      | .captured tls => tls.hasFact
      | .unavailable _ => false

structure NormalizedEvidence.IsCanonical (item : NormalizedEvidence) : Prop where
  value : Collapsed item.value
  key : ∀ c ∈ item.key, c.isUpper = false
  header : item.source = .header → isSensitiveHeader item.key = false

end Usable

section Canonical

theorem normalized_collapsed {value text : Text} (found : normalized value = some text) :
    Collapsed text := by
  dsimp only [normalized] at found
  split at found
  · cases found
  · rename_i present
    rw [← Option.some.inj found]
    apply collapsed_joinWords
    · intro absent
      rw [absent] at present
      exact present rfl
    · intro word member
      exact wordsFrom_plain (by simp) member

theorem normalizedHostname_collapsed {value text : Text}
    (found : normalizedHostname value = some text) : Collapsed text := by
  obtain ⟨joined, _, found⟩ := Option.bind_eq_some_iff.mp found
  dsimp only at found
  split at found
  · cases found
  · rename_i kept
    rw [← Option.some.inj found]
    simp only [Bool.or_eq_true, List.isEmpty_iff, List.any_eq_true, not_or, not_exists,
      not_and, Bool.not_eq_true] at kept
    exact collapsed_of_plain kept.1 kept.2

theorem asciiLowercase_lower (text : Text) : ∀ c ∈ asciiLowercase text, c.isUpper = false := by
  intro c member
  obtain ⟨d, _, rfl⟩ := List.mem_map.mp member
  exact isUpper_toLower d

theorem normalizedKey_lower {value text : Text} (found : normalizedKey value = some text) :
    ∀ c ∈ text, c.isUpper = false := by
  obtain ⟨words, _, rfl⟩ := Option.map_eq_some_iff.mp found
  exact asciiLowercase_lower words

theorem parserKey_lower : ∀ key ∈ ["title", "src", "queried_name", "address", "protocol",
    "cipher_suite", "certificate_subject", "certificate_issuer", "subject_alternative_name",
    "meta."], ∀ c ∈ key.toList, c.isUpper = false := by
  simp only [List.forall_mem_cons]
  exact ⟨forall_mem_of_all (by decide +kernel), forall_mem_of_all (by decide +kernel),
    forall_mem_of_all (by decide +kernel), forall_mem_of_all (by decide +kernel),
    forall_mem_of_all (by decide +kernel), forall_mem_of_all (by decide +kernel),
    forall_mem_of_all (by decide +kernel), forall_mem_of_all (by decide +kernel),
    forall_mem_of_all (by decide +kernel), forall_mem_of_all (by decide +kernel),
    fun _ absent => nomatch absent⟩

theorem titleItem_canonical {title : Text} {item : NormalizedEvidence}
    (found : titleItem title = some item) : item.IsCanonical := by
  obtain ⟨value, own, rfl⟩ := Option.map_eq_some_iff.mp found
  exact ⟨normalized_collapsed own, parserKey_lower "title" (by simp),
    fun ofHeader => nomatch ofHeader⟩

theorem metaItem_canonical {attributes : Attributes} {item : NormalizedEvidence}
    (found : metaItem attributes = some item) : item.IsCanonical := by
  obtain ⟨name, _, found⟩ := Option.bind_eq_some_iff.mp found
  obtain ⟨key, lower, found⟩ := Option.bind_eq_some_iff.mp found
  obtain ⟨content, _, found⟩ := Option.bind_eq_some_iff.mp found
  obtain ⟨value, own, found⟩ := Option.bind_eq_some_iff.mp found
  rw [← Option.some.inj found]
  refine ⟨normalized_collapsed own, ?_, fun ofHeader => nomatch ofHeader⟩
  intro c member
  rcases List.mem_append.mp member with tag | inKey
  · exact parserKey_lower "meta." (by simp) c tag
  · exact normalizedKey_lower lower c inKey

theorem scriptItem_canonical {attributes : Attributes} {item : NormalizedEvidence}
    (found : scriptItem attributes = some item) : item.IsCanonical := by
  obtain ⟨src, _, found⟩ := Option.bind_eq_some_iff.mp found
  obtain ⟨source, own, found⟩ := Option.bind_eq_some_iff.mp found
  rw [← Option.some.inj found]
  exact ⟨normalized_collapsed own, parserKey_lower "src" (by simp),
    fun ofHeader => nomatch ofHeader⟩

/-- The name is checked after it was lowered, as it is stored. -/
theorem headerItem_canonical {header : Text × Text} {item : NormalizedEvidence}
    (found : headerItem header = some item) : item.IsCanonical := by
  obtain ⟨name, key, found⟩ := Option.bind_eq_some_iff.mp found
  split at found
  · cases found
  · rename_i allowed
    obtain ⟨value, own, found⟩ := Option.bind_eq_some_iff.mp found
    rw [← Option.some.inj found]
    exact ⟨normalized_collapsed own, normalizedKey_lower key, fun _ => by simpa using allowed⟩

theorem tlsItem_canonical {tls : TlsArtifact} {fact : String × Option Text}
    (inFacts : fact ∈ tls.facts) {item : NormalizedEvidence} (found : tlsItem fact = some item) :
    item.IsCanonical := by
  obtain ⟨text, own, rfl⟩ := Option.map_eq_some_iff.mp found
  obtain ⟨value, _, own⟩ := Option.bind_eq_some_iff.mp own
  refine ⟨normalized_collapsed own, parserKey_lower fact.1 ?_, fun ofHeader => nomatch ofHeader⟩
  simp only [TlsArtifact.facts, List.mem_cons, List.not_mem_nil, or_false] at inFacts
  rcases inFacts with rfl | rfl | rfl | rfl <;> simp

theorem alternativeNameItem_canonical {name : Text} {item : NormalizedEvidence}
    (found : alternativeNameItem name = some item) : item.IsCanonical := by
  obtain ⟨text, own, rfl⟩ := Option.map_eq_some_iff.mp found
  exact ⟨normalizedHostname_collapsed own, parserKey_lower "subject_alternative_name" (by simp),
    fun ofHeader => nomatch ofHeader⟩

variable {crate : HtmlCrate} {input : ArtifactBundle} {item : NormalizedEvidence}

/-- What the parser of one source adds is canonical and of a usable source. -/
theorem parseHtml_canonical (member : item ∈ (parseHtml crate input.html).evidence) :
    item.IsCanonical ∧ input.isUsable item.source = true := by
  have source := (parseHtml_covers crate input.html).evidence item member
  cases html : input.html with
  | unavailable reason =>
      rw [html] at member
      cases member
  | captured bytes =>
      rw [html] at member
      dsimp only [parseHtml] at member
      cases decoded : decodeUtf8 bytes with
      | none =>
          rw [decoded] at member
          cases member
      | some page =>
          rw [decoded] at member
          have usable : input.isUsable item.source = true := by
            simp only [List.mem_cons, List.not_mem_nil, or_false] at source
            rcases source with source | source <;>
              simp only [source, ArtifactBundle.isUsable, html, decoded, Option.isSome_some]
          refine ⟨?_, usable⟩
          simp only [List.mem_append, Option.mem_toList, List.mem_filterMap] at member
          rcases member with (found | ⟨attributes, _, found⟩) | ⟨attributes, _, found⟩
          · obtain ⟨title, _, found⟩ := Option.bind_eq_some_iff.mp found
            exact titleItem_canonical found
          · exact metaItem_canonical found
          · exact scriptItem_canonical found

theorem parseHeaders_canonical (member : item ∈ (parseHeaders input.headers).evidence) :
    item.IsCanonical ∧ input.isUsable item.source = true := by
  have source := (parseHeaders_covers input.headers).evidence item member
  rw [List.mem_singleton] at source
  cases headers : input.headers with
  | unavailable reason =>
      rw [headers] at member
      cases member
  | captured values =>
      rw [headers] at member
      obtain ⟨value, _, found⟩ := List.mem_filterMap.mp member
      refine ⟨headerItem_canonical found, ?_⟩
      simp only [source, ArtifactBundle.isUsable, headers]

theorem parseDns_canonical (member : item ∈ (parseDns input.dns).evidence) :
    item.IsCanonical ∧ input.isUsable item.source = true := by
  have source := (parseDns_covers input.dns).evidence item member
  rw [List.mem_singleton] at source
  cases dns : input.dns with
  | unavailable reason =>
      rw [dns] at member
      cases member
  | captured value =>
      rw [dns] at member
      dsimp only [parseDns] at member
      cases found : normalizedHostname value.queriedName with
      | none =>
          rw [found] at member
          cases member
      | some name =>
          rw [found] at member
          constructor
          · rcases List.mem_cons.mp member with rfl | inAddresses
            · exact ⟨normalizedHostname_collapsed found, parserKey_lower "queried_name" (by simp),
                fun ofHeader => nomatch ofHeader⟩
            · obtain ⟨address, _, rfl⟩ := List.mem_map.mp inAddresses
              have shown : address.display ≠ [] := by
                intro absent
                have present := address.display_bounded.1
                rw [absent] at present
                exact present rfl
              exact ⟨collapsed_of_plain shown address.plain_display,
                parserKey_lower "address" (by simp), fun ofHeader => nomatch ofHeader⟩
          · simp only [source, ArtifactBundle.isUsable, dns, found, Option.isSome_some]

/-- An item of a certificate is there because a fact of it is. -/
theorem parseTls_canonical (member : item ∈ (parseTls input.tls).evidence) :
    item.IsCanonical ∧ input.isUsable item.source = true := by
  have source := (parseTls_covers input.tls).evidence item member
  rw [List.mem_singleton] at source
  cases tls : input.tls with
  | unavailable reason =>
      rw [tls] at member
      cases member
  | captured value =>
      rw [tls] at member
      simp only [source, ArtifactBundle.isUsable, tls, TlsArtifact.hasFact, Bool.or_eq_true,
        List.any_eq_true]
      rcases List.mem_append.mp member with ofFact | ofName
      · obtain ⟨fact, inFacts, found⟩ := List.mem_filterMap.mp ofFact
        refine ⟨tlsItem_canonical inFacts found, Or.inl ⟨fact, inFacts, ?_⟩⟩
        obtain ⟨text, own, _⟩ := Option.map_eq_some_iff.mp found
        rw [own]
        rfl
      · obtain ⟨name, inNames, found⟩ := List.mem_filterMap.mp ofName
        refine ⟨alternativeNameItem_canonical found, Or.inr ⟨name, inNames, ?_⟩⟩
        obtain ⟨text, own, _⟩ := Option.map_eq_some_iff.mp found
        rw [own]
        rfl

end Canonical

section Availability

theorem TlsArtifact.isEmpty_evidence (tls : TlsArtifact) :
    (tls.facts.filterMap tlsItem ++
      tls.subjectAlternativeNames.filterMap alternativeNameItem).isEmpty = !tls.hasFact := by
  rw [Bool.eq_iff_iff, List.isEmpty_iff, List.append_eq_nil_iff, List.filterMap_eq_nil_iff,
    List.filterMap_eq_nil_iff]
  simp [tlsItem, alternativeNameItem, TlsArtifact.hasFact]

theorem lookup_parseHtml (crate : HtmlCrate) (input : ArtifactBundle) {source : ArtifactSource}
    (page : source = .html ∨ source = .script) :
    ∃ availability, (parseHtml crate input.html).availability.lookup source = some availability ∧
      (availability = .available ↔ input.isUsable source = true) := by
  cases html : input.html with
  | unavailable reason =>
      refine ⟨.unavailable reason, ?_, ?_⟩
      · rcases page with page | page <;> rw [page] <;> rfl
      · rcases page with page | page <;> simp [page, ArtifactBundle.isUsable, html]
  | captured bytes =>
      dsimp only [parseHtml]
      cases decoded : decodeUtf8 bytes with
      | none =>
          refine ⟨.unavailable .invalid, ?_, ?_⟩
          · rcases page with page | page <;> rw [page] <;> rfl
          · rcases page with page | page <;> simp [page, ArtifactBundle.isUsable, html, decoded]
      | some text =>
          refine ⟨.available, ?_, ?_⟩
          · rcases page with page | page <;> rw [page] <;> rfl
          · rcases page with page | page <;> simp [page, ArtifactBundle.isUsable, html, decoded]

theorem lookup_parseHeaders (input : ArtifactBundle) :
    ∃ availability, (parseHeaders input.headers).availability.lookup .header = some availability ∧
      (availability = .available ↔ input.isUsable .header = true) := by
  cases headers : input.headers with
  | unavailable reason =>
      exact ⟨.unavailable reason, rfl, by simp [ArtifactBundle.isUsable, headers]⟩
  | captured values => exact ⟨.available, rfl, by simp [ArtifactBundle.isUsable, headers]⟩

theorem lookup_parseDns (input : ArtifactBundle) :
    ∃ availability, (parseDns input.dns).availability.lookup .dns = some availability ∧
      (availability = .available ↔ input.isUsable .dns = true) := by
  cases dns : input.dns with
  | unavailable reason =>
      exact ⟨.unavailable reason, rfl, by simp [ArtifactBundle.isUsable, dns]⟩
  | captured value =>
      dsimp only [parseDns]
      cases found : normalizedHostname value.queriedName with
      | none => exact ⟨.unavailable .invalid, rfl, by simp [ArtifactBundle.isUsable, dns, found]⟩
      | some name => exact ⟨.available, rfl, by simp [ArtifactBundle.isUsable, dns, found]⟩

theorem lookup_parseTls (input : ArtifactBundle) :
    ∃ availability, (parseTls input.tls).availability.lookup .tls = some availability ∧
      (availability = .available ↔ input.isUsable .tls = true) := by
  cases tls : input.tls with
  | unavailable reason =>
      exact ⟨.unavailable reason, rfl, by simp [ArtifactBundle.isUsable, tls]⟩
  | captured value =>
      refine ⟨_, rfl, ?_⟩
      rw [value.isEmpty_evidence]
      cases fact : value.hasFact <;> simp [ArtifactBundle.isUsable, tls, fact]

/-- A source counts as available exactly when it was captured and is valid. -/
theorem availability_eq_available_iff (crate : HtmlCrate) (input : ArtifactBundle)
    (source : ArtifactSource) :
    (parse crate input).availability source = .available ↔ input.isUsable source = true := by
  have notHtml : source ∉ [ArtifactSource.html, .script] →
      (parseHtml crate input.html).availability.lookup source = none :=
    (parseHtml_covers crate input.html).lookup_eq_none
  have notHeader : source ∉ [ArtifactSource.header] →
      (parseHeaders input.headers).availability.lookup source = none :=
    (parseHeaders_covers input.headers).lookup_eq_none
  have notDns : source ∉ [ArtifactSource.dns] →
      (parseDns input.dns).availability.lookup source = none :=
    (parseDns_covers input.dns).lookup_eq_none
  rw [availability_parse]
  cases source with
  | html =>
      obtain ⟨availability, found, same⟩ := lookup_parseHtml crate input (Or.inl rfl)
      rw [found, ← same]
      rfl
  | script =>
      obtain ⟨availability, found, same⟩ := lookup_parseHtml crate input (Or.inr rfl)
      rw [found, ← same]
      rfl
  | header =>
      obtain ⟨availability, found, same⟩ := lookup_parseHeaders input
      rw [notHtml (by decide), found, ← same]
      rfl
  | dns =>
      obtain ⟨availability, found, same⟩ := lookup_parseDns input
      rw [notHtml (by decide), notHeader (by decide), found, ← same]
      rfl
  | tls =>
      obtain ⟨availability, found, same⟩ := lookup_parseTls input
      rw [notHtml (by decide), notHeader (by decide), notDns (by decide), found, ← same]
      rfl

end Availability

section Parsed

theorem NormalizedEvidence.sortKey_lt {left right : NormalizedEvidence}
    (below : left.le right = true) (differ : left ≠ right) : left.sortKey < right.sortKey := by
  apply lt_of_le_of_ne (NormalizedEvidence.le_iff.mp below)
  intro same
  have back : right.le left = true := NormalizedEvidence.le_iff.mpr (le_of_eq same.symm)
  exact differ (Std.Antisymm.antisymm (r := fun left right : NormalizedEvidence =>
    left.le right = true) left right below back)

theorem parse_sorted (crate : HtmlCrate) (input : ArtifactBundle) :
    (parse crate input).evidence.Pairwise fun left right => left.sortKey < right.sortKey := by
  have sorted : (parse crate input).evidence.Pairwise fun left right => left.le right = true :=
    (List.pairwise_insertionSort _ _).sublist (List.destutter_sublist _ _)
  have distinct : (parse crate input).evidence.Nodup := nodup_destutter_insertionSort _
  exact (List.pairwise_and_iff.mpr ⟨sorted, distinct⟩).imp fun both =>
    NormalizedEvidence.sortKey_lt both.1 both.2

theorem mem_parse_canonical {crate : HtmlCrate} {input : ArtifactBundle}
    {item : NormalizedEvidence} (member : item ∈ (parse crate input).evidence) :
    item.IsCanonical ∧ input.isUsable item.source = true := by
  rcases (mem_parse crate).mp member with html | header | dns | tls
  · exact parseHtml_canonical html
  · exact parseHeaders_canonical header
  · exact parseDns_canonical dns
  · exact parseTls_canonical tls

/-- Evidence is strictly sorted and canonical, comes from available sources only,
and a source that was not captured or is invalid adds none. -/
theorem parse_canonical (crate : HtmlCrate) (input : ArtifactBundle) :
    (parse crate input).evidence.Pairwise (fun left right => left.sortKey < right.sortKey) ∧
      (∀ item ∈ (parse crate input).evidence, item.IsCanonical ∧
        (parse crate input).availability item.source = .available) ∧
      ∀ source, input.isUsable source = false →
        ∀ item ∈ (parse crate input).evidence, item.source ≠ source := by
  refine ⟨parse_sorted crate input, ?_, ?_⟩
  · intro item member
    obtain ⟨canonical, usable⟩ := mem_parse_canonical member
    exact ⟨canonical, (availability_eq_available_iff crate input item.source).mpr usable⟩
  · intro source unusable item member same
    have usable := (mem_parse_canonical member).2
    rw [same, unusable] at usable
    cases usable

end Parsed

end TechAtlas.Parser
