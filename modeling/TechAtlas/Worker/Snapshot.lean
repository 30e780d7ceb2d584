import TechAtlas.Acquisition.Crawler
import TechAtlas.Detector
import TechAtlas.Parser.Parse
import TechAtlas.Store.Worker

set_option autoImplicit false

/- What the worker prepares of a response before it records it: the page that may
be stored, the DNS and TLS observations, what the rules detect and the metadata of
the snapshot. -/
namespace TechAtlas.Worker

open Library TechAtlas.Acquisition TechAtlas.Detector TechAtlas.Parser TechAtlas.Store

section Sanitized

/-- A match of a pattern, with the named groups that took part in it. -/
structure Captures where
  whole : Text
  groups : List (Text × Text)

inductive Piece
  | between (text : Text)
  | matched (captures : Captures)

/-- The `regex` crate on the patterns of the redaction: a text is split into the
matches of a pattern and what lies between them. The third one is compiled for
each attribute. -/
structure RedactionPatterns where
  tag : Text → List Piece
  attributes : Text → List Piece
  assignment : Text → Option (Text → List Piece)

def Captures.name (captures : Captures) (group : String) : Option Text :=
  captures.groups.lookup group.toList

/-- `Regex::replace_all`. -/
def replaceAll (pieces : List Piece) (replacement : Captures → Text) : Text :=
  pieces.flatMap fun piece =>
    match piece with
    | .between text => text
    | .matched captures => replacement captures

variable (patterns : RedactionPatterns)

def redactTagAttribute (tag attributeName : Text) : Text :=
  match patterns.assignment attributeName with
  | none => tag
  | some expression => replaceAll (expression tag) fun captures =>
      (captures.name "prefix").getD [] ++ "\"[redacted]\"".toList

def sensitiveNeedles : List String :=
  [ "password", "passphrase", "token", "secret", "api-key", "apikey", "credential", "auth",
    "cookie", "session", "private-key", "email", "phone", "telephone", "address",
    "social-security", "ssn", "birth" ]

def isSensitiveAttribute (captures : Captures) : Bool :=
  let name := asciiLowercase ((captures.name "name").getD [])
  let value := asciiLowercase
    ((((captures.name "double").or (captures.name "single")).or (captures.name "bare")).getD [])
  (["name", "id", "autocomplete", "property", "http-equiv"].any fun known =>
    name == known.toList) && sensitiveNeedles.any fun needle => containsText needle.toList value

def tagHasSensitiveIdentifier (tag : Text) : Bool :=
  (patterns.attributes tag).any fun piece =>
    match piece with
    | .between _ => false
    | .matched captures => isSensitiveAttribute captures

def redactHtmlPersistenceValues (html : Text) : Text :=
  replaceAll (patterns.tag html) fun captures =>
    let tag := asciiLowercase ((captures.name "tag").getD [])
    if tagHasSensitiveIdentifier patterns captures.whole then
      redactTagAttribute patterns captures.whole
        (if tag = "input".toList then "value".toList else "content".toList)
    else captures.whole

def sanitizedHtmlForStorage (response : CrawlResponse) : Option (List UInt8) := do
  let contentType ← response.headers.lookup "content-type".toList
  let mediaType := trim (contentType.takeWhile (· != ';'))
  if !eqIgnoreAsciiCase mediaType "text/html".toList &&
      !eqIgnoreAsciiCase mediaType "application/xhtml+xml".toList then none
  let html ← decodeUtf8 response.body
  some (encodeUtf8 (redactHtmlPersistenceValues patterns html))

end Sanitized

section Observations

inductive CrawlObservationUnavailableReason
  | notCaptured
  | notApplicable
  | timeout
  | connectionFailed
  | invalid
  deriving DecidableEq, Repr

inductive CrawlObservationError
  | invalidSource
  | invalidValue (field : Text)
  deriving DecidableEq, Repr

structure CrawlDnsObservation where
  source : Text
  observedAt : Time
  queriedName : Option Text
  addresses : List IpAddr
  unavailableReason : Option CrawlObservationUnavailableReason
  deriving DecidableEq, Repr

inductive TlsCertificateValidation
  | verified
  | failed
  deriving DecidableEq, Repr

structure CrawlTlsObservation where
  source : Text
  observedAt : Time
  unavailableReason : Option CrawlObservationUnavailableReason
  validation : Option TlsCertificateValidation
  protocol : Option Text
  cipherSuite : Option Text
  certificateSubject : Option Text
  certificateIssuer : Option Text
  subjectAlternativeNames : List Text
  certificateNotBefore : Option Time
  certificateNotAfter : Option Time
  deriving DecidableEq, Repr

def requiredObservationValue (field value : Text) :
    Except CrawlObservationError (Option Text) :=
  let value := trim value
  if value.isEmpty || 512 < utf8Length value then .error (.invalidValue field)
  else .ok (some value)

def requiredObservationSource (value : Text) : Except CrawlObservationError Text := do
  let value ← requiredObservationValue "observation source".toList value
  orError value .invalidSource

/-- A blank fact counts as an absent one. -/
def boundedOptional (value : Option Text) : Except CrawlObservationError (Option Text) :=
  match value.filter fun value => !(trim value).isEmpty with
  | none => .ok none
  | some value => requiredObservationValue "TLS observation value".toList value

def CrawlDnsObservation.available (source : Text) (observedAt : Time) (queriedName : Text)
    (addresses : List IpAddr) : Except CrawlObservationError CrawlDnsObservation := do
  let source ← requiredObservationSource source
  let queriedName ← requiredObservationValue "DNS queried name".toList queriedName
  .ok {
    source := source
    observedAt := observedAt
    queriedName := queriedName
    addresses := addresses
    unavailableReason := none }

def CrawlDnsObservation.unavailable (source : Text) (observedAt : Time)
    (reason : CrawlObservationUnavailableReason) :
    Except CrawlObservationError CrawlDnsObservation := do
  let source ← requiredObservationSource source
  .ok {
    source := source
    observedAt := observedAt
    queriedName := none
    addresses := []
    unavailableReason := some reason }

def CrawlTlsObservation.available (source : Text) (observedAt : Time)
    (validation : TlsCertificateValidation) (capture : TlsCapture) :
    Except CrawlObservationError CrawlTlsObservation := do
  let source ← requiredObservationSource source
  let protocol ← boundedOptional capture.protocol
  let cipherSuite ← boundedOptional capture.cipherSuite
  let certificateSubject ← boundedOptional capture.certificateSubject
  let certificateIssuer ← boundedOptional capture.certificateIssuer
  let names ← capture.subjectAlternativeNames.mapM fun name => boundedOptional (some name)
  .ok {
    source := source
    observedAt := observedAt
    unavailableReason := none
    validation := some validation
    protocol := protocol
    cipherSuite := cipherSuite
    certificateSubject := certificateSubject
    certificateIssuer := certificateIssuer
    subjectAlternativeNames := names.filterMap id
    certificateNotBefore := capture.certificateNotBefore
    certificateNotAfter := capture.certificateNotAfter }

def CrawlTlsObservation.unavailable (source : Text) (observedAt : Time)
    (reason : CrawlObservationUnavailableReason) :
    Except CrawlObservationError CrawlTlsObservation := do
  let source ← requiredObservationSource source
  .ok {
    source := source
    observedAt := observedAt
    unavailableReason := some reason
    validation := none
    protocol := none
    cipherSuite := none
    certificateSubject := none
    certificateIssuer := none
    subjectAlternativeNames := []
    certificateNotBefore := none
    certificateNotAfter := none }

def observationReason : CaptureUnavailableReason → CrawlObservationUnavailableReason
  | .notCaptured => .notCaptured
  | .notApplicable => .notApplicable
  | .timeout => .timeout
  | .connectionFailed => .connectionFailed
  | .invalid => .invalid

def certificateValidation : TlsValidation → TlsCertificateValidation
  | .verified => .verified
  | .failed => .failed

def dnsObservation (observedAt : Time) :
    Capture DnsCapture → Except CrawlObservationError CrawlDnsObservation
  | .captured capture =>
      CrawlDnsObservation.available "crawler_dns_v1".toList observedAt capture.queriedName
        capture.addresses
  | .unavailable reason =>
      CrawlDnsObservation.unavailable "crawler_dns_v1".toList observedAt (observationReason reason)

def tlsObservation (observedAt : Time) :
    Capture TlsCapture → Except CrawlObservationError CrawlTlsObservation
  | .captured capture =>
      CrawlTlsObservation.available "crawler_tls_v1".toList observedAt
        (certificateValidation capture.validation) capture
  | .unavailable reason =>
      CrawlTlsObservation.unavailable "crawler_tls_v1".toList observedAt (observationReason reason)

end Observations

section Metadata

inductive CrawlSnapshotMetadataError
  | emptyUrl (field : Text)
  | invalidHttpStatus
  | sensitiveHeader
  deriving DecidableEq, Repr

def requiredUrl (field value : Text) : Except CrawlSnapshotMetadataError Text :=
  let value := trim value
  if value.isEmpty then .error (.emptyUrl field) else .ok value

def validateStatus (status : Nat) : Except CrawlSnapshotMetadataError Nat :=
  if 100 ≤ status ∧ status ≤ 599 then .ok status else .error .invalidHttpStatus

/-- The check of the parser, for a name that is trimmed and lowercased first. -/
def isSensitiveHeader (name : Text) : Bool :=
  Parser.isSensitiveHeader (asciiLowercase (trim name))

def CrawlRedirectMetadata.new (fromUrl toUrl : Text) (status : Nat) :
    Except CrawlSnapshotMetadataError CrawlRedirectMetadata := do
  let fromUrl ← requiredUrl "redirect source URL".toList fromUrl
  let toUrl ← requiredUrl "redirect destination URL".toList toUrl
  let status ← validateStatus status
  .ok { fromUrl := fromUrl, toUrl := toUrl, status := status }

def CrawlSnapshotMetadata.new (requestedUrl finalUrl : Text)
    (redirects : List CrawlRedirectMetadata) (responseStatus : Nat)
    (responseHeaders : List (Text × Text)) (bodySizeBytes : Nat) (capturedAt : Time) :
    Except CrawlSnapshotMetadataError CrawlSnapshotMetadata := do
  require (responseHeaders.all fun header => !isSensitiveHeader header.1) .sensitiveHeader
  let requestedUrl ← requiredUrl "requested URL".toList requestedUrl
  let finalUrl ← requiredUrl "final URL".toList finalUrl
  let responseStatus ← validateStatus responseStatus
  .ok {
    requestedUrl := requestedUrl
    finalUrl := finalUrl
    redirects := redirects
    responseStatus := responseStatus
    responseHeaders := responseHeaders
    bodySizeBytes := bodySizeBytes
    capturedAt := capturedAt
    countryObservation := none }

end Metadata

section Snapshot

inductive WorkerProcessError
  | repository (error : CrawlWorkerRepositoryError)
  | failure (error : CrawlFailureError)
  | snapshot (error : CrawlSnapshotMetadataError)
  | detection (error : DetectorError)
  | observation (error : CrawlObservationError)
  | bodySize
  deriving DecidableEq, Repr

def parserReason : CaptureUnavailableReason → Parser.UnavailableReason
  | .notCaptured => .notCaptured
  | .notApplicable => .unsupported
  | .invalid => .invalid
  | .timeout | .connectionFailed => .notCaptured

def parserDns : Capture DnsCapture → ArtifactInput DnsArtifact
  | .captured capture => .captured ⟨capture.queriedName, capture.addresses⟩
  | .unavailable reason => .unavailable (parserReason reason)

def parserTls : Capture TlsCapture → ArtifactInput TlsArtifact
  | .captured capture => .captured {
      protocol := capture.protocol
      cipherSuite := capture.cipherSuite
      certificateSubject := capture.certificateSubject
      certificateIssuer := capture.certificateIssuer
      subjectAlternativeNames := capture.subjectAlternativeNames }
  | .unavailable reason => .unavailable (parserReason reason)

/-- The input of the parser, with the page as it may be stored. -/
def crawlBundle (persistableHtml : Option (List UInt8)) (response : CrawlResponse) :
    ArtifactBundle where
  html := match persistableHtml with
    | some html => .captured html
    | none => .unavailable .notCaptured
  headers := .captured response.headers
  dns := parserDns response.dns
  tls := parserTls response.tls

/-- The crates the worker calls and its country enricher. -/
structure Services where
  urls : UrlCrate
  htmls : HtmlCrate
  patterns : RedactionPatterns
  regexes : RegexCrate
  observeCountry : List IpAddr → Option CountryObservation

variable (services : Services)

def redirectMetadata (redirect : CrawlRedirect) :
    Except CrawlSnapshotMetadataError CrawlRedirectMetadata :=
  CrawlRedirectMetadata.new (services.urls.display redirect.origin.url)
    (services.urls.display redirect.target.url) redirect.status

structure PreparedSnapshot where
  snapshot : CrawlSnapshotMetadata
  persistableHtml : Option (List UInt8)
  dnsObservation : CrawlDnsObservation
  tlsObservation : CrawlTlsObservation
  detections : List Detection
  observations : List RuleObservation

/-- What the parser makes of the response when it is crawled. -/
def parsedResponse (response : CrawlResponse) : ParsedArtifacts :=
  parse services.htmls (crawlBundle (sanitizedHtmlForStorage services.patterns response) response)

/-- `snapshot_from_response_with_metrics`. -/
def snapshotFromResponse (requested : CrawlUrl) (response : CrawlResponse) (capturedAt : Time)
    (activeRules : List ActiveDetectionRule) : Except WorkerProcessError PreparedSnapshot := do
  let redirects ← (response.redirects.mapM (redirectMetadata services)).mapError .snapshot
  require (decide (response.body.length < 2 ^ 64)) .bodySize
  let dnsObservation ← (dnsObservation capturedAt response.dns).mapError .observation
  let tlsObservation ← (tlsObservation capturedAt response.tls).mapError .observation
  let evaluated ← (evaluateActive services.regexes (parsedResponse services response)
    activeRules).mapError .detection
  let snapshot ← (CrawlSnapshotMetadata.new (services.urls.display requested.url)
    (services.urls.display response.finalUrl.url) redirects response.status response.headers
    response.body.length capturedAt).mapError .snapshot
  .ok {
    snapshot := { snapshot with
      countryObservation := services.observeCountry response.resolvedAddresses }
    persistableHtml := sanitizedHtmlForStorage services.patterns response
    dnsObservation := dnsObservation
    tlsObservation := tlsObservation
    detections := evaluated.detections
    observations := evaluated.observations }

end Snapshot

section Observable

theorem requiredObservationValue_eq_ok {field text : Text} {value : Option Text} :
    requiredObservationValue field text = .ok value ↔
      (trim text ≠ [] ∧ utf8Length (trim text) ≤ 512) ∧ some (trim text) = value := by
  unfold requiredObservationValue
  by_cases refused : ((trim text).isEmpty || 512 < utf8Length (trim text)) = true
  · rw [if_pos refused]
    simp only [Bool.or_eq_true, List.isEmpty_iff, decide_eq_true_eq] at refused
    constructor
    · intro success
      cases success
    · rintro ⟨⟨present, bounded⟩, _⟩
      rcases refused with blank | long
      · exact absurd blank present
      · omega
  · rw [if_neg refused, Except.ok.injEq]
    simp only [Bool.or_eq_true, List.isEmpty_iff, decide_eq_true_eq, not_or, not_lt] at refused
    constructor
    · intro same
      exact ⟨refused, same⟩
    · intro observed
      exact observed.2

theorem boundedOptional_succeeds {value : Option Text} :
    (∃ result, boundedOptional value = .ok result) ↔
      ∀ text ∈ value, utf8Length (trim text) ≤ 512 := by
  cases value with
  | none =>
      constructor
      · intro _ text absent
        cases absent
      · intro _
        exact ⟨none, rfl⟩
  | some text =>
      unfold boundedOptional
      by_cases blank : trim text = []
      · have absent : (some text).filter (fun text => !(trim text).isEmpty) = none := by
          simp [blank]
        rw [absent]
        constructor
        · intro _ other same
          rw [Option.mem_some_iff.mp same] at blank
          rw [blank]
          exact Nat.zero_le _
        · intro _
          exact ⟨none, rfl⟩
      · have present : (some text).filter (fun text => !(trim text).isEmpty) = some text := by
          simp [blank]
        rw [present]
        simp only [requiredObservationValue_eq_ok]
        constructor
        · rintro ⟨_, ⟨_, bounded⟩, _⟩ other same
          rw [← Option.mem_some_iff.mp same]
          exact bounded
        · intro bounded
          exact ⟨_, ⟨blank, bounded text rfl⟩, rfl⟩

theorem requiredObservationSource_succeeds (source : Text) (observed : trim source ≠ [] ∧
    utf8Length (trim source) ≤ 512) : requiredObservationSource source = .ok (trim source) := by
  exact bind_eq_ok.mpr ⟨_, requiredObservationValue_eq_ok.mpr ⟨observed, rfl⟩, rfl⟩

theorem dnsObservation_succeeds {observedAt : Time} {capture : Capture DnsCapture} :
    (∃ observation, dnsObservation observedAt capture = .ok observation) ↔
      ∀ own, capture = .captured own →
        trim own.queriedName ≠ [] ∧ utf8Length (trim own.queriedName) ≤ 512 := by
  have source := requiredObservationSource_succeeds "crawler_dns_v1".toList (by decide)
  cases capture with
  | unavailable reason =>
      constructor
      · intro _ own same
        cases same
      · intro _
        exact exists_bind_ok source ⟨_, rfl⟩
  | captured own =>
      constructor
      · rintro ⟨observation, success⟩ other same
        obtain ⟨_, _, success⟩ := bind_eq_ok.mp success
        obtain ⟨_, observed, _⟩ := bind_eq_ok.mp success
        cases same
        exact (requiredObservationValue_eq_ok.mp observed).1
      · intro observed
        exact exists_bind_ok source
          (exists_bind_ok (requiredObservationValue_eq_ok.mpr ⟨observed own rfl, rfl⟩) ⟨_, rfl⟩)

/-- The facts of a certificate that are recorded as text. -/
def TlsCapture.texts (capture : TlsCapture) : List Text :=
  [capture.protocol, capture.cipherSuite, capture.certificateSubject,
    capture.certificateIssuer].filterMap id ++ capture.subjectAlternativeNames

theorem tlsObservation_succeeds {observedAt : Time} {capture : Capture TlsCapture} :
    (∃ observation, tlsObservation observedAt capture = .ok observation) ↔
      ∀ own, capture = .captured own →
        ∀ text ∈ TlsCapture.texts own, utf8Length (trim text) ≤ 512 := by
  have source := requiredObservationSource_succeeds "crawler_tls_v1".toList (by decide)
  cases capture with
  | unavailable reason =>
      constructor
      · intro _ own same
        cases same
      · intro _
        exact exists_bind_ok source ⟨_, rfl⟩
  | captured own =>
      constructor
      · rintro ⟨observation, success⟩ other same text member
        cases same
        obtain ⟨_, _, success⟩ := bind_eq_ok.mp success
        obtain ⟨_, protocol, success⟩ := bind_eq_ok.mp success
        obtain ⟨_, cipherSuite, success⟩ := bind_eq_ok.mp success
        obtain ⟨_, subject, success⟩ := bind_eq_ok.mp success
        obtain ⟨_, issuer, success⟩ := bind_eq_ok.mp success
        obtain ⟨_, names, _⟩ := bind_eq_ok.mp success
        rcases List.mem_append.mp member with fact | name
        · simp only [List.mem_filterMap, List.mem_cons, List.not_mem_nil, or_false, id] at fact
          obtain ⟨value, inFacts, present⟩ := fact
          rcases inFacts with rfl | rfl | rfl | rfl
          · exact boundedOptional_succeeds.mp ⟨_, protocol⟩ text present
          · exact boundedOptional_succeeds.mp ⟨_, cipherSuite⟩ text present
          · exact boundedOptional_succeeds.mp ⟨_, subject⟩ text present
          · exact boundedOptional_succeeds.mp ⟨_, issuer⟩ text present
        · obtain ⟨_, _, bounded⟩ := ok_of_mem_of_mapM names name
          exact boundedOptional_succeeds.mp ⟨_, bounded⟩ text rfl
      · intro bounded
        have fact : ∀ value ∈ [own.protocol, own.cipherSuite, own.certificateSubject,
            own.certificateIssuer], ∃ result, boundedOptional value = .ok result := by
          intro value inFacts
          refine boundedOptional_succeeds.mpr fun text present => bounded own rfl text ?_
          exact List.mem_append_left _ (List.mem_filterMap.mpr ⟨value, inFacts, present⟩)
        have name : ∀ name ∈ own.subjectAlternativeNames,
            ∃ result, boundedOptional (some name) = .ok result := by
          intro name inNames
          refine boundedOptional_succeeds.mpr fun text present => bounded own rfl text ?_
          rw [← Option.mem_some_iff.mp present]
          exact List.mem_append_right _ inNames
        obtain ⟨protocol, protocolBounded⟩ := fact own.protocol (by simp)
        obtain ⟨cipherSuite, cipherSuiteBounded⟩ := fact own.cipherSuite (by simp)
        obtain ⟨subject, subjectBounded⟩ := fact own.certificateSubject (by simp)
        obtain ⟨issuer, issuerBounded⟩ := fact own.certificateIssuer (by simp)
        obtain ⟨names, namesBounded, _⟩ := mapM_ok_of_forall name
        exact exists_bind_ok source (exists_bind_ok protocolBounded
          (exists_bind_ok cipherSuiteBounded (exists_bind_ok subjectBounded
            (exists_bind_ok issuerBounded (exists_bind_ok namesBounded ⟨_, rfl⟩)))))

end Observable

section Shop

/-- A page without form fields or metadata, and what the crates make of it. -/
def shopPage : Text := "<script src=\"https://cdn.shopify.com/s.js\"></script>".toList

def shopDocument : HtmlDocument where
  title := none
  metaElements := []
  scriptElements := [[("src".toList, "https://cdn.shopify.com/s.js".toList)]]

def shopServices : Services where
  urls := plainUrlCrate
  htmls := { parseDocument := fun html => if html = shopPage then shopDocument else ⟨none, [], []⟩ }
  patterns := {
    tag := fun text => [.between text]
    attributes := fun text => [.between text]
    assignment := fun _ => some fun text => [.between text] }
  regexes := { compile := fun _ => none }
  observeCountry := fun _ => none

def shopUrl : Url where
  scheme := "https".toList
  username := []
  password := none
  host := some (.domain "example.com".toList)
  port := none
  path := ['/']
  query := none
  fragment := none

theorem shopUrl_allowed : CrawlUrl.Allowed shopUrl "example.com".toList :=
  ⟨by decide, rfl, rfl, rfl, rfl, by decide⟩

def shopTarget : CrawlUrl where
  url := shopUrl
  host := "example.com".toList
  allowed := shopUrl_allowed

theorem shopOctets_size : (#[93, 184, 216, 34] : Array UInt8).size = 4 := rfl

def shopAddress : IpAddr := .v4 ⟨⟨#[93, 184, 216, 34], shopOctets_size⟩⟩

def shopResponse (status : Nat) : CrawlResponse where
  finalUrl := shopTarget
  resolvedAddresses := [shopAddress]
  redirects := []
  status := status
  headers := [("content-type".toList, "text/html; charset=utf-8".toList)]
  body := encodeUtf8 shopPage
  dns := .captured ⟨"example.com".toList, [shopAddress]⟩
  tls := .unavailable .connectionFailed

/-- The rule that looks for the shop's script. -/
def shopRule : ActiveDetectionRule where
  technologySlug := "shopify".toList
  technologyCategorySlug := "ecommerce".toList
  ruleSlug := "shopify-v1".toList
  version := 1
  definition := .object [
    ("threshold".toList, .number (.posInt 70)),
    ("signals".toList, .array [.object [
      ("source".toList, .string "script".toList),
      ("key".toList, .string "src".toList),
      ("match".toList, .string "contains_ignore_case".toList),
      ("value".toList, .string "cdn.shopify.com".toList),
      ("weight".toList, .number (.posInt 95))]])]

end Shop

end TechAtlas.Worker
