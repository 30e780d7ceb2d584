import TechAtlas.Detector.Agreement
import TechAtlas.Reprocessing.Repository
import TechAtlas.Worker.Snapshot

set_option autoImplicit false

/- `ReprocessingProcessor`: a rule replayed over a stored snapshot, and how far the
replay agrees with evaluating the rule when the page was crawled. -/
namespace TechAtlas.Reprocessing

open Library TechAtlas.Acquisition TechAtlas.Detector TechAtlas.Parser TechAtlas.Store
open TechAtlas.Storage TechAtlas.Worker

section Processor

def evaluateReprocessing (regexes : RegexCrate) (parsed : ParsedArtifacts)
    (rule : ActiveDetectionRule) : Except DetectorError ReprocessingEvaluation :=
  evaluateActiveRule regexes rule parsed

/-- The input of the parser that `process_next` builds for an item. DNS and TLS
facts are not stored for it. -/
def replayBundle (retrieve : RawArtifactMetadata → Except RawArtifactStoreError Bytes)
    (item : WorkItem) : Except RawArtifactStoreError ArtifactBundle := do
  let html ← match item.artifact with
    | some artifact => (retrieve artifact).map ArtifactInput.captured
    | none => .ok (.unavailable .notCaptured)
  .ok {
    html := html
    headers := .captured item.responseHeaders
    dns := .unavailable .notCaptured
    tls := .unavailable .notCaptured }

/-- Why an item could not be evaluated. -/
inductive ReplayError
  | artifact (error : RawArtifactStoreError)
  | detector (error : DetectorError)
  deriving DecidableEq, Repr

/-- What `process_next` records of an item: a success with its evaluation, or a
failure. -/
def replay (htmls : HtmlCrate) (regexes : RegexCrate)
    (retrieve : RawArtifactMetadata → Except RawArtifactStoreError Bytes) (item : WorkItem) :
    Except ReplayError ReprocessingEvaluation := do
  let bundle ← (replayBundle retrieve item).mapError .artifact
  (evaluateReprocessing regexes (parse htmls bundle) item.rule).mapError .detector

end Processor

section Stored

variable (retrieve : RawArtifactMetadata → Except RawArtifactStoreError Bytes)

/-- The tables hold what was prepared of a response: its headers, and the page
where there is one, which the artifact store still returns. -/
structure Holds (tables : Tables) (snapshotId : Uuid) (prepared : PreparedSnapshot) : Prop where
  headers : ∀ row ∈ tables.snapshots, row.id = snapshotId →
    row.responseHeaders = prepared.snapshot.responseHeaders
  page : ∀ page, prepared.persistableHtml = some page →
    ∃ artifact, tables.artifactOf snapshotId = .ok (some artifact) ∧ retrieve artifact = .ok page
  noPage : prepared.persistableHtml = none → tables.artifactOf snapshotId = .ok none

/-- Capturing the response leaves the tables so, where identifiers are drawn once
and the metadata passes its own check unchanged. -/
theorem capture_holds {tables : Tables} {prepared : PreparedSnapshot} {attempt : AttemptRow}
    {artifact : Option RawArtifactMetadata}
    (snapshots : ∀ row ∈ tables.snapshots, row.id < tables.nextId)
    (artifacts : ∀ row ∈ tables.artifacts, row.crawlSnapshotId < tables.nextId)
    (valid : ∀ own ∈ artifact, responseBody own.storageLocation own.checksumSha256 own.compression
      own.uncompressedSizeBytes own.compressedSizeBytes own.retentionExpiresAt = .ok own)
    (page : ∀ page, prepared.persistableHtml = some page →
      ∃ own, artifact = some own ∧ retrieve own = .ok page)
    (noPage : prepared.persistableHtml = none → artifact = none) :
    Holds retrieve (tables.capture (snapshotRow attempt tables.nextId prepared.snapshot) artifact)
      tables.nextId prepared := by
  have admitted : artifact.all isValidMetadata = true := by
    cases artifact with
    | none => rfl
    | some own =>
        change isValidMetadata own = true
        rw [isValidMetadata, valid own rfl]
        rfl
  have absent : tables.artifacts.find? (fun row => row.crawlSnapshotId == tables.nextId) = none := by
    rw [List.find?_eq_none]
    intro row member
    rw [beq_iff_eq]
    exact Nat.ne_of_lt (artifacts row member)
  unfold Tables.capture
  rw [if_pos admitted]
  constructor
  · intro row member same
    rcases List.mem_append.mp member with old | new
    · exact absurd same (Nat.ne_of_lt (snapshots row old))
    · rw [List.mem_singleton.mp new]
      rfl
  · intro bytes present
    obtain ⟨own, rfl, returned⟩ := page bytes present
    refine ⟨own, ?_, returned⟩
    unfold Tables.artifactOf
    dsimp only [Option.map_some, Option.toList_some]
    rw [List.find?_append, absent, Option.none_or, List.find?_singleton]
    simp only [artifactRow, beq_self_eq_true, ↓reduceIte, valid own rfl]
    rfl
  · intro none
    rw [noPage none]
    unfold Tables.artifactOf
    dsimp only [Option.map_none, Option.toList_none]
    rw [List.append_nil, absent]

/-- What a claimed item brings along is what the tables hold for its snapshot. -/
theorem claimed_stored {tables after : Tables} {now : Time} {item : WorkItem}
    (claimed : claimNextReprocessingItem tables now = .ok (after, some item)) :
    (∃ row ∈ tables.snapshots, row.id = item.snapshotId ∧
      row.responseHeaders = item.responseHeaders) ∧
      tables.artifactOf item.snapshotId = .ok item.artifact := by
  unfold claimNextReprocessingItem at claimed
  split at claimed
  · cases claimed
  · rename_i row _
    obtain ⟨_, _, claimed⟩ := bind_eq_ok.mp claimed
    obtain ⟨⟨snapshot, version⟩, source, claimed⟩ := bind_eq_ok.mp claimed
    obtain ⟨artifact, found, claimed⟩ := bind_eq_ok.mp claimed
    cases claimed
    refine ⟨?_, found⟩
    obtain ⟨run, _, source⟩ := Option.bind_eq_some_iff.mp (orError_eq_ok.mp source)
    obtain ⟨own, isSnapshot, source⟩ := Option.bind_eq_some_iff.mp source
    obtain ⟨_, _, source⟩ := Option.bind_eq_some_iff.mp source
    cases source
    exact ⟨_, List.mem_of_find?_eq_some isSnapshot, by simpa using List.find?_some isSnapshot, rfl⟩

end Stored

section Agreement

/-- The input of the parser for a stored page and stored headers. -/
def storedBundle (page : Option (List UInt8)) (headers : List (Text × Text)) : ArtifactBundle where
  html := match page with
    | some html => .captured html
    | none => .unavailable .notCaptured
  headers := .captured headers
  dns := .unavailable .notCaptured
  tls := .unavailable .notCaptured

theorem replayBundle_of_holds {retrieve : RawArtifactMetadata → Except RawArtifactStoreError Bytes}
    {tables after : Tables} {now : Time} {item : WorkItem} {prepared : PreparedSnapshot}
    (claimed : claimNextReprocessingItem tables now = .ok (after, some item))
    (holds : Holds retrieve tables item.snapshotId prepared) :
    replayBundle retrieve item =
      .ok (storedBundle prepared.persistableHtml prepared.snapshot.responseHeaders) := by
  obtain ⟨⟨row, member, own, headers⟩, artifact⟩ := claimed_stored claimed
  have stored : item.responseHeaders = prepared.snapshot.responseHeaders :=
    headers.symm.trans (holds.headers row member own)
  unfold replayBundle
  cases page : prepared.persistableHtml with
  | none =>
      have same := holds.noPage page
      rw [artifact] at same
      rw [Except.ok.inj same, stored]
      rfl
  | some bytes =>
      obtain ⟨own, found, returned⟩ := holds.page bytes page
      rw [artifact] at found
      rw [Except.ok.inj found, stored]
      dsimp only
      rw [returned]
      rfl

theorem snapshotFromResponse_stored {services : Services} {requested : CrawlUrl}
    {response : CrawlResponse} {capturedAt : Time} {rules : List ActiveDetectionRule}
    {prepared : PreparedSnapshot}
    (success : snapshotFromResponse services requested response capturedAt rules = .ok prepared) :
    prepared.persistableHtml = sanitizedHtmlForStorage services.patterns response ∧
      prepared.snapshot.responseHeaders = response.headers ∧
      (∃ observation, dnsObservation capturedAt response.dns = .ok observation) ∧
      ∃ observation, tlsObservation capturedAt response.tls = .ok observation := by
  obtain ⟨redirects, _, success⟩ := bind_eq_ok.mp success
  obtain ⟨_, _, success⟩ := bind_eq_ok.mp success
  obtain ⟨dns, dnsObserved, success⟩ := bind_eq_ok.mp success
  obtain ⟨tls, tlsObserved, success⟩ := bind_eq_ok.mp success
  obtain ⟨evaluated, _, success⟩ := bind_eq_ok.mp success
  obtain ⟨snapshot, built, success⟩ := bind_eq_ok.mp success
  cases success
  refine ⟨rfl, ?_, ⟨dns, mapError_eq_ok.mp dnsObserved⟩, ⟨tls, mapError_eq_ok.mp tlsObserved⟩⟩
  obtain ⟨_, _, built⟩ := bind_eq_ok.mp (mapError_eq_ok.mp built)
  obtain ⟨_, _, built⟩ := bind_eq_ok.mp built
  obtain ⟨_, _, built⟩ := bind_eq_ok.mp built
  obtain ⟨_, _, built⟩ := bind_eq_ok.mp built
  cases built
  rfl

theorem toDetectionEvidence_of_short {item : NormalizedEvidence} (short : item.IsShort) :
    ∃ evidence, toDetectionEvidence item = .ok evidence := by
  have key : boundedRequired item.key 128 = some (trim item.key) :=
    if_pos ⟨short.key.1, le_trans (trim_length_le _) short.key.2⟩
  have value : boundedRequired item.value 2048 = some (trim item.value) :=
    if_pos ⟨short.value.1, le_trans (trim_length_le _) (le_trans short.value.2 (by decide))⟩
  have built : DetectionEvidence.new (evidenceSource item.source) item.key item.value =
      .ok ⟨evidenceSource item.source, trim item.key, trim item.value⟩ := by
    unfold DetectionEvidence.new
    rw [key, value]
  exact ⟨_, mapError_eq_ok.mpr built⟩

variable {services : Services} {response : CrawlResponse}

variable (services response) in
theorem agree_stored (page : Option (List UInt8)) :
    Agree ArtifactSource.isPage (parse services.htmls (storedBundle page response.headers))
      (parse services.htmls (crawlBundle page response)) where
  evidence _ own := filter_parse (by rfl) (by rfl) own
  availability _ own := availability_page (by rfl) (by rfl) own

/-- DNS and TLS facts that were recorded are short enough to be evidence. -/
theorem network_short {capturedAt : Time} {page : Option (List UInt8)}
    (dns : ∃ observation, dnsObservation capturedAt response.dns = .ok observation)
    (tls : ∃ observation, tlsObservation capturedAt response.tls = .ok observation)
    {item : NormalizedEvidence}
    (member : item ∈ (parse services.htmls (crawlBundle page response)).evidence)
    (network : item.source.isPage = false) : item.IsShort := by
  rcases network_evidence member network with ofDns | ofTls
  · have bounded := dnsObservation_succeeds.mp dns
    change item ∈ (parseDns (parserDns response.dns)).evidence at ofDns
    cases captured : response.dns with
    | unavailable reason =>
        rw [captured] at ofDns
        cases ofDns
    | captured own =>
        rw [captured] at ofDns
        exact parseDns_short (le_trans (length_le_utf8Length _) (bounded own captured).2) item ofDns
  · have bounded := tlsObservation_succeeds.mp tls
    change item ∈ (parseTls (parserTls response.tls)).evidence at ofTls
    cases captured : response.tls with
    | unavailable reason =>
        rw [captured] at ofTls
        cases ofTls
    | captured own =>
        rw [captured] at ofTls
        have short : ∀ text ∈ Worker.TlsCapture.texts own, (trim text).length ≤ 512 := by
          intro text inTexts
          exact le_trans (length_le_utf8Length _) (bounded own captured text inTexts)
        refine parseTls_short ?_ ?_ item ofTls
        · intro fact inFacts value present
          apply short
          refine List.mem_append_left _ (List.mem_filterMap.mpr ⟨fact.2, ?_, present⟩)
          simp only [TlsArtifact.facts, List.mem_cons, List.not_mem_nil, or_false] at inFacts
          rcases inFacts with rfl | rfl | rfl | rfl <;> simp
        · intro name inNames
          exact short name (List.mem_append_right _ inNames)

theorem extends_stored {capturedAt : Time} {page : Option (List UInt8)}
    (dns : ∃ observation, dnsObservation capturedAt response.dns = .ok observation)
    (tls : ∃ observation, tlsObservation capturedAt response.tls = .ok observation) :
    Extends (parse services.htmls (storedBundle page response.headers))
      (parse services.htmls (crawlBundle page response)) where
  kept := parse_subset (by rfl) (by rfl) (by rfl) (by rfl)
  recorded item member absent := by
    apply toDetectionEvidence_of_short
    apply network_short dns tls member
    by_contra ofPage
    have kind : ∀ other : NormalizedEvidence, decide (other = item) = true →
        other.source.isPage = true := by
      intro other same
      rw [of_decide_eq_true same]
      exact Bool.eq_true_of_not_eq_false ofPage
    have same := (agree_stored services response page).evidence
      (fun other => decide (other = item)) kind
    have found : item ∈ (parse services.htmls (crawlBundle page response)).evidence.filter
        fun other => decide (other = item) := List.mem_filter.mpr ⟨member, by simp⟩
    rw [← same] at found
    exact absent (List.mem_filter.mp found).1

end Agreement

section Replay

variable {services : Services}
  {retrieve : RawArtifactMetadata → Except RawArtifactStoreError Bytes} {response : CrawlResponse}

theorem usesOnly_page {page : Option (List UInt8)} {headers : List (Text × Text)}
    {rule : ActiveDetectionRule} {replayed : ReprocessingEvaluation}
    (success : evaluateReprocessing services.regexes (parse services.htmls
      (storedBundle page headers)) rule = .ok replayed)
    (absent : replayed.observation.status = .confirmedAbsent) :
    rule.usesOnly ArtifactSource.isPage = true := by
  have readable := usesOnly_of_confirmedAbsent success absent
  rw [ActiveDetectionRule.usesOnly, List.all_eq_true] at readable ⊢
  intro signal member
  have own := readable signal member
  cases found : signalSource signal with
  | none => rfl
  | some source =>
      rw [found] at own
      simp only [Option.all_some, beq_iff_eq] at own ⊢
      by_contra network
      have unavailable : (parse services.htmls (storedBundle page headers)).availability source =
          .unavailable .notCaptured :=
        availability_network (by rfl) (by rfl) (Bool.eq_false_iff.mpr network)
      rw [unavailable] at own
      cases own

/-- A rule replayed over the stored snapshot of a response, as the crawl prepared
it and the replay claims it, against the evaluation at crawl time: the same
outcome for a rule on the page alone, and for every rule no absence of what was
detected and no detection of what was not. -/
theorem replay_agrees_with_crawl {requested : CrawlUrl} {capturedAt : Time}
    {rules : List ActiveDetectionRule} {prepared : PreparedSnapshot}
    (crawl : snapshotFromResponse services requested response capturedAt rules = .ok prepared)
    {tables after : Tables} {now : Time} {item : WorkItem}
    (claimed : claimNextReprocessingItem tables now = .ok (after, some item))
    (holds : Holds retrieve tables item.snapshotId prepared) :
    ∃ bundle, replayBundle retrieve item = .ok bundle ∧
      (item.rule.usesOnly ArtifactSource.isPage = true →
        (evaluateReprocessing services.regexes (parse services.htmls bundle)
          item.rule).toOption.map RuleEvaluation.outcome =
        (evaluateActiveRule services.regexes item.rule
          (parsedResponse services response)).toOption.map RuleEvaluation.outcome) ∧
      ∀ replayed, evaluateReprocessing services.regexes (parse services.htmls bundle) item.rule =
          .ok replayed →
        (replayed.observation.status = .confirmedAbsent →
          ∀ own, evaluateActiveRule services.regexes item.rule (parsedResponse services response) =
            .ok own → own.observation.status ≠ .detected) ∧
        (replayed.observation.status = .detected →
          ∃ own, evaluateActiveRule services.regexes item.rule (parsedResponse services response) =
            .ok own ∧ own.observation.status = .detected) := by
  obtain ⟨page, headers, dns, tls⟩ := snapshotFromResponse_stored crawl
  have bundle := replayBundle_of_holds claimed holds
  rw [page, headers] at bundle
  have agree := agree_stored services response
    (sanitizedHtmlForStorage services.patterns response)
  refine ⟨_, bundle, evaluateActiveRule_outcome agree, ?_⟩
  intro replayed success
  constructor
  · intro absent own crawled detected
    obtain ⟨other, same, outcome⟩ :=
      evaluateActiveRule_agree agree (usesOnly_page success absent) success
    have equal := (Except.ok.inj (crawled.symm.trans same)).symm
    rw [equal] at outcome
    have observed : own.observation = replayed.observation := congrArg Prod.snd outcome
    rw [observed, absent] at detected
    cases detected
  · exact evaluateActiveRule_monotone (extends_stored dns tls) success

/-- The metadata of the shop's page, in a store that holds nothing else. -/
def shopArtifact : RawArtifactMetadata where
  storageLocation := locationFor (List.replicate 64 'a')
  checksumSha256 := List.replicate 64 'a'
  compression := .zstd
  uncompressedSizeBytes := 52
  compressedSizeBytes := 40
  retentionExpiresAt := 1000

def shopStore (artifact : RawArtifactMetadata) : Except RawArtifactStoreError Bytes :=
  if artifact = shopArtifact then .ok (encodeUtf8 shopPage) else .error .notFound

def shopSnapshot : SnapshotRow where
  id := 1
  crawlAttemptId := 0
  domainId := 7
  requestedUrl := "https://example.com/".toList
  finalUrl := "https://example.com/".toList
  redirectChain := []
  responseStatus := 200
  responseHeaders := (shopResponse 200).headers
  responseBodyBytes := 52
  capturedAt := 0

/-- A published rule, a snapshot and a run over it. -/
def shopTables : Tables where
  versions := [⟨0, 3, shopRule⟩]
  snapshots := [shopSnapshot]
  artifacts := [artifactRow 1 0 shopArtifact]
  runs := [requestedRun 2 0 "operator".toList "first".toList 1 5]
  items := itemsFor 2 5 3 [shopSnapshot]
  observations := []
  detections := []
  evidence := []
  versionChanges := []
  auditEvents := []
  auditKinds := replayKinds
  nextId := 4

theorem shopTables_hold {prepared : PreparedSnapshot} (crawl : snapshotFromResponse shopServices
    shopTarget (shopResponse 200) 0 [shopRule] = .ok prepared) :
    Holds shopStore shopTables 1 prepared := by
  obtain ⟨page, headers, _, _⟩ := snapshotFromResponse_stored crawl
  have bytes : sanitizedHtmlForStorage shopServices.patterns (shopResponse 200) =
      some (encodeUtf8 shopPage) := by decide +kernel
  constructor
  · intro row member _
    rw [List.mem_singleton.mp member, headers]
    rfl
  · intro own found
    rw [page, bytes] at found
    rw [← Option.some.inj found]
    exact ⟨shopArtifact, by decide +kernel, by decide +kernel⟩
  · intro absent
    rw [page, bytes] at absent
    cases absent

/-- The shop's rule, crawled and then replayed. -/
theorem shopReplay_agrees :
    ∃ prepared after item bundle, snapshotFromResponse shopServices shopTarget (shopResponse 200) 0
      [shopRule] = .ok prepared ∧
      claimNextReprocessingItem shopTables 10 = .ok (after, some item) ∧
      replayBundle shopStore item = .ok bundle ∧
      (evaluateReprocessing shopServices.regexes (parse shopServices.htmls bundle)
        item.rule).toOption.map RuleEvaluation.outcome =
      (evaluateActiveRule shopServices.regexes item.rule
        (parsedResponse shopServices (shopResponse 200))).toOption.map RuleEvaluation.outcome := by
  have crawled : (snapshotFromResponse shopServices shopTarget (shopResponse 200) 0
      [shopRule]).isOk = true := by decide +kernel
  have known : ((claimNextReprocessingItem shopTables 10).toOption.bind Prod.snd).map
      (fun item => (item.snapshotId, item.rule.usesOnly ArtifactSource.isPage)) =
        some (1, true) := by decide +kernel
  cases crawl : snapshotFromResponse shopServices shopTarget (shopResponse 200) 0 [shopRule] with
  | error reason =>
      rw [crawl] at crawled
      cases crawled
  | ok prepared =>
      cases claimed : claimNextReprocessingItem shopTables 10 with
      | error reason =>
          rw [claimed] at known
          cases known
      | ok result =>
          obtain ⟨after, found⟩ := result
          rw [claimed] at known
          obtain ⟨item, same, own⟩ := Option.map_eq_some_iff.mp known
          change found = some item at same
          subst same
          have snapshot : item.snapshotId = 1 := congrArg Prod.fst own
          have holds := shopTables_hold crawl
          rw [← snapshot] at holds
          obtain ⟨bundle, built, agrees, _⟩ := replay_agrees_with_crawl crawl claimed holds
          exact ⟨prepared, after, item, bundle, rfl, rfl, built, agrees (congrArg Prod.snd own)⟩

end Replay

end TechAtlas.Reprocessing
