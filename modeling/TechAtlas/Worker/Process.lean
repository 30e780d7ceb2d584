import TechAtlas.Library.Dialogue
import TechAtlas.Rules.Fixture
import TechAtlas.Storage.Artifacts
import TechAtlas.Worker.Snapshot

set_option autoImplicit false

/- `WorkerProcessor::process`: from the claim of an attempt to the record of what
became of it, and for which responses there is a record at all. -/
namespace TechAtlas.Worker

open Library Library.Dialogue TechAtlas.Acquisition TechAtlas.Detector TechAtlas.Parser TechAtlas.Rules
open TechAtlas.Storage TechAtlas.Store

section Failures

inductive PolitenessGateError
  | cancelled
  | unavailable (reason : Text)
  deriving DecidableEq, Repr

def PolitenessGateError.message : PolitenessGateError → Text
  | .cancelled => "politeness wait was cancelled".toList
  | .unavailable reason => "politeness gate is unavailable: ".toList ++ reason

def failureCodeForPoliteness : PolitenessGateError → Text
  | .cancelled => "cancelled".toList
  | .unavailable _ => "politeness_unavailable".toList

def failureCodeForCrawl : CrawlError → Text
  | .cancelled => "cancelled".toList
  | .timeout => "network_timeout".toList
  | .dns (.blockedAddress _ _) => "unsafe_target".toList
  | .dns .timeout => "dns_timeout".toList
  | .dns (.resolution _) => "dns_failure".toList
  | .transport _ => "network_failure".toList
  | .responseTooLarge _ _ => "body_limit_exceeded".toList
  | .redirectLimitExceeded _ => "redirect_limit_exceeded".toList
  | .missingRedirectLocation => "invalid_redirect".toList
  | .invalidRedirectTarget _ => "invalid_redirect".toList
  | .robotsDenied _ => "robots_denied".toList
  | .robotsUnavailable _ => "robots_unavailable".toList

/-- The characters that fit the limit in bytes, up to the first that does not. -/
def takeBytes : Nat → Text → Text
  | _, [] => []
  | limit, c :: rest => if limit < c.utf8Size then [] else c :: takeBytes (limit - c.utf8Size) rest

def boundedSummary (summary : Text) : Text :=
  let bounded := takeBytes 1024 (trim summary)
  if bounded.isEmpty then "crawl processing failed".toList else bounded

end Failures

section Process

structure PolitenessRequest where
  domain : Text
  minimumDelay : Duration

/-- `SuccessfulCrawlRecord`, with the observations that the projection does not read. -/
structure CompleteCrawlRecord where
  snapshot : CrawlSnapshotMetadata
  artifact : Option RawArtifactMetadata
  dnsObservation : CrawlDnsObservation
  tlsObservation : CrawlTlsObservation
  detections : List Detection
  observations : List RuleObservation

/-- What the worker asks of its collaborators. -/
inductive Request
  | claimAttempt (job : CrawlJobV1) (startedAt : Time)
  | acquire (request : PolitenessRequest)
  | fetch (target : CrawlUrl)
  | activeDetectionRules
  | store (contents : List UInt8) (retentionExpiresAt : Time)
  | recordSuccess (job : CrawlJobV1) (record : CompleteCrawlRecord)
  | recordFailure (job : CrawlJobV1) (failure : CrawlFailure) (finishedAt : Time)
      (settings : SchedulerSettings)

def Request.isRecord : Request → Bool
  | .recordSuccess _ _ | .recordFailure _ _ _ _ => true
  | _ => false

/-- What the collaborators answer. The worker asks each of them once at most. -/
structure Answers where
  startedAt : Time
  capturedAt : Time
  finishedAt : Time
  claim : Except CrawlWorkerRepositoryError ClaimedCrawlAttempt
  politeness : Except PolitenessGateError Unit
  fetched : Except CrawlError CrawlResponse
  rules : Except CrawlWorkerRepositoryError (List ActiveDetectionRule)
  stored : Except RawArtifactStoreError RawArtifactMetadata
  succeeded : Except CrawlWorkerRepositoryError Unit
  failed : Except CrawlWorkerRepositoryError Unit

structure Processor where
  services : Services
  politenessDelay : Duration
  artifactRetention : Duration
  schedulerSettings : SchedulerSettings

variable (processor : Processor) (answers : Answers)

abbrev Processing := Dialogue Request WorkerProcessError

/-- A question, recorded, and its answer. -/
def ask {α : Type} (request : Request) (answer : α) : Processing α :=
  .exchange (fun _ => answer) fun _ => request

/-- A step that fails leaves the whole processing with its error: `?`. -/
def orLeave {α ε : Type} (rename : ε → WorkerProcessError) : Except ε α → Processing α
  | .ok value => pure value
  | .error error => .fail (rename error)

@[simp] theorem ask_bind {α β : Type} (request : Request) (answer : α) (next : α → Processing β)
    (trace : List Request) :
    (ask request answer >>= next) trace = next answer (request :: trace) := rfl

@[simp] theorem orLeave_ok_bind {α β ε : Type} (rename : ε → WorkerProcessError) (value : α)
    (next : α → Processing β) (trace : List Request) :
    (orLeave rename (.ok value) >>= next) trace = next value trace := rfl

@[simp] theorem orLeave_error_bind {α β ε : Type} (rename : ε → WorkerProcessError) (error : ε)
    (next : α → Processing β) (trace : List Request) :
    (orLeave rename (.error error) >>= next) trace = (.error (rename error), trace) := rfl

/-- `WorkerProcessor::record_failure`. -/
def recordFailure (job : CrawlJobV1) (code summary : Text) : Processing Unit := do
  let failure ← orLeave .failure (CrawlFailure.new code (boundedSummary summary))
  let recorded ← ask (.recordFailure job failure answers.finishedAt processor.schedulerSettings)
    answers.failed
  orLeave .repository recorded

def recordPrepared (job : CrawlJobV1) (prepared : PreparedSnapshot)
    (artifact : Option RawArtifactMetadata) : Processing Unit := do
  let recorded ← ask (.recordSuccess job {
    snapshot := prepared.snapshot
    artifact := artifact
    dnsObservation := prepared.dnsObservation
    tlsObservation := prepared.tlsObservation
    detections := prepared.detections
    observations := prepared.observations }) answers.succeeded
  orLeave .repository recorded

/-- From the response on: the rules, the snapshot, the artifact and the record. -/
def processResponse (job : CrawlJobV1) (target : CrawlUrl) (response : CrawlResponse) :
    Processing Unit := do
  let rules ← ask .activeDetectionRules answers.rules
  let rules ← orLeave .repository rules
  let prepared ← orLeave id (snapshotFromResponse processor.services target response
    answers.capturedAt rules)
  match prepared.persistableHtml with
  | none => recordPrepared answers job prepared none
  | some contents => do
      let stored ← ask (.store contents (answers.capturedAt + processor.artifactRetention))
        answers.stored
      match stored with
      | .ok artifact => recordPrepared answers job prepared (some artifact)
      | .error _ =>
          recordFailure processor answers job "artifact_storage_failed".toList
            "raw artifact storage failed".toList

def process (job : CrawlJobV1) : Processing Unit := do
  let claim ← ask (.claimAttempt job answers.startedAt) answers.claim
  let claim ← orLeave .repository claim
  match claim with
  | .terminal => pure ()
  | .ready canonicalDomain =>
      match CrawlUrl.parse processor.services.urls canonicalDomain.text with
      | .error error =>
          recordFailure processor answers job "invalid_target".toList error.message
      | .ok target => do
          let allowed ← ask (.acquire {
            domain := target.host
            minimumDelay := processor.politenessDelay }) answers.politeness
          match allowed with
          | .error error =>
              recordFailure processor answers job (failureCodeForPoliteness error) error.message
          | .ok () => do
              let fetched ← ask (.fetch target) answers.fetched
              match fetched with
              | .error error =>
                  recordFailure processor answers job (failureCodeForCrawl error) error.message
              | .ok response => processResponse processor answers job target response

end Process

section Summaries

theorem takeBytes_prefix (limit : Nat) (text : Text) : takeBytes limit text <+: text := by
  induction text generalizing limit with
  | nil => exact List.nil_prefix
  | cons c rest ih =>
      rw [takeBytes]
      split
      · exact List.nil_prefix
      · exact List.cons_prefix_cons.mpr ⟨rfl, ih _⟩

theorem takeBytes_utf8Length (limit : Nat) (text : Text) :
    utf8Length (takeBytes limit text) ≤ limit := by
  induction text generalizing limit with
  | nil => exact Nat.zero_le limit
  | cons c rest ih =>
      rw [takeBytes]
      split
      · exact Nat.zero_le limit
      · have shorter := ih (limit - c.utf8Size)
        rw [utf8Length, List.map_cons, List.sum_cons]
        change c.utf8Size + utf8Length (takeBytes (limit - c.utf8Size) rest) ≤ limit
        omega

/-- The longest part from the start that fits a number of bytes. It ends at a
character, as every text does. -/
structure LongestPrefix (limit : Nat) (text part : Text) : Prop where
  isPrefix : part <+: text
  fits : utf8Length part ≤ limit
  longest : ∀ other, other <+: text → utf8Length other ≤ limit → other <+: part

theorem prefix_takeBytes {limit : Nat} {text part : Text} (isPrefix : part <+: text)
    (fits : utf8Length part ≤ limit) : part <+: takeBytes limit text := by
  induction text generalizing limit part with
  | nil => exact isPrefix
  | cons c rest ih =>
      cases part with
      | nil => exact List.nil_prefix
      | cons d later =>
          obtain ⟨same, inRest⟩ := List.cons_prefix_cons.mp isPrefix
          subst same
          have size : d.utf8Size + utf8Length later ≤ limit := by
            simpa [utf8Length] using fits
          rw [takeBytes, if_neg (by omega)]
          exact List.cons_prefix_cons.mpr ⟨rfl, ih inRest (by omega)⟩

theorem takeBytes_longest (limit : Nat) (text : Text) :
    LongestPrefix limit text (takeBytes limit text) where
  isPrefix := takeBytes_prefix limit text
  fits := takeBytes_utf8Length limit text
  longest := fun _ isPrefix fits => prefix_takeBytes isPrefix fits

/-- A first character always fits. -/
theorem takeBytes_eq_nil_iff (text : Text) : takeBytes 1024 text = [] ↔ text = [] := by
  constructor
  · intro empty
    cases text with
    | nil => rfl
    | cons c rest =>
        have small := c.utf8Size_le_four
        rw [takeBytes, if_neg (by omega)] at empty
        cases empty
  · intro empty
    rw [empty]
    rfl

theorem boundedSummary_blank {summary : Text} (blank : trim summary = []) :
    boundedSummary summary = "crawl processing failed".toList := by
  rw [boundedSummary, blank]
  rfl

theorem boundedSummary_present {summary : Text} (present : trim summary ≠ []) :
    boundedSummary summary = takeBytes 1024 (trim summary) := by
  have taken : takeBytes 1024 (trim summary) ≠ [] := by
    rw [Ne, takeBytes_eq_nil_iff]
    exact present
  unfold boundedSummary
  dsimp only
  rw [if_neg]
  rw [List.isEmpty_iff]
  exact taken

theorem utf8Length_sublist {part text : Text} (sub : part.Sublist text) :
    utf8Length part ≤ utf8Length text := by
  have sizes : (part.map fun c : Char => c.utf8Size).Sublist (text.map fun c => c.utf8Size) :=
    sub.map _
  exact sizes.sum_le_sum fun _ _ => Nat.zero_le _

theorem trim_sublist (text : Text) : (trim text).Sublist text :=
  (List.rdropWhile_prefix isWhitespace _).sublist.trans
    (List.dropWhile_suffix isWhitespace).sublist

theorem boundedSummary_bounded (summary : Text) : trim (boundedSummary summary) ≠ [] ∧
    utf8Length (trim (boundedSummary summary)) ≤ 1024 := by
  have short : utf8Length (boundedSummary summary) ≤ 1024 := by
    unfold boundedSummary
    dsimp only
    split
    · decide
    · exact takeBytes_utf8Length 1024 (trim summary)
  refine ⟨?_, le_trans (utf8Length_sublist (trim_sublist _)) short⟩
  unfold boundedSummary
  dsimp only
  cases taken : takeBytes 1024 (trim summary) with
  | nil => decide
  | cons c rest =>
      apply trim_ne_nil List.mem_cons_self
      obtain ⟨later, split⟩ := takeBytes_prefix 1024 (trim summary)
      apply trim_first
      rw [← split, taken]
      rfl

/-- The second trim takes white space from the end only. -/
theorem trim_takeBytes (limit : Nat) (summary : Text) :
    ∃ white : Text, (∀ c ∈ white, isWhitespace c = true) ∧
      trim (takeBytes limit (trim summary)) ++ white = takeBytes limit (trim summary) := by
  have started : (takeBytes limit (trim summary)).dropWhile isWhitespace =
      takeBytes limit (trim summary) := by
    cases taken : takeBytes limit (trim summary) with
    | nil => rfl
    | cons c rest =>
        obtain ⟨later, split⟩ := takeBytes_prefix limit (trim summary)
        have first : (trim summary).head? = some c := by
          rw [← split, taken]
          rfl
        rw [List.dropWhile_cons_of_neg]
        rw [trim_first first]
        exact Bool.false_ne_true
  refine ⟨(takeBytes limit (trim summary)).rtakeWhile isWhitespace, ?_, ?_⟩
  · intro c member
    exact List.mem_rtakeWhile_imp member
  · rw [trim, started, List.rdropWhile_append_rtakeWhile]

theorem crawlFailure_new {code : Text} (present : trim code ≠ []) (summary : Text) :
    ∃ failure, CrawlFailure.new code (boundedSummary summary) = .ok failure := by
  obtain ⟨nonblank, short⟩ := boundedSummary_bounded summary
  unfold CrawlFailure.new
  rw [dif_neg present, dif_neg nonblank, dif_neg (Nat.not_lt.mpr short)]
  exact ⟨_, rfl⟩

theorem failureCodeForPoliteness_present (error : PolitenessGateError) :
    trim (failureCodeForPoliteness error) ≠ [] := by
  cases error
  all_goals
    change trim (String.toList _) ≠ []
    decide

theorem failureCodeForCrawl_present (error : CrawlError) :
    trim (failureCodeForCrawl error) ≠ [] := by
  cases error with
  | dns source =>
      cases source
      all_goals
        change trim (String.toList _) ≠ []
        decide
  | _ =>
      change trim (String.toList _) ≠ []
      decide

end Summaries

section Responses

variable {services : Services} {target : CrawlUrl} {response : CrawlResponse}
  {rules : List ActiveDetectionRule}

/-- A response of which a snapshot can be prepared: every URL has a text, the statuses
are HTTP statuses, no header is sensitive, and what DNS and TLS captured and what a rule
matches is not too long. -/
structure Recordable (services : Services) (target : CrawlUrl) (response : CrawlResponse)
    (rules : List ActiveDetectionRule) : Prop where
  requested : trim (services.urls.display target.url) ≠ []
  final : trim (services.urls.display response.finalUrl.url) ≠ []
  redirects : ∀ redirect ∈ response.redirects,
    trim (services.urls.display redirect.origin.url) ≠ [] ∧
      trim (services.urls.display redirect.target.url) ≠ [] ∧
        100 ≤ redirect.status ∧ redirect.status ≤ 599
  status : 100 ≤ response.status ∧ response.status ≤ 599
  headers : ∀ header ∈ response.headers, isSensitiveHeader header.1 = false
  body : response.body.length < 2 ^ 64
  dns : ∀ capture, response.dns = .captured capture →
    trim capture.queriedName ≠ [] ∧ utf8Length (trim capture.queriedName) ≤ 512
  tls : ∀ capture, response.tls = .captured capture →
    ∀ text ∈ TlsCapture.texts capture, utf8Length (trim text) ≤ 512
  evidence : ∀ rule ∈ rules, ∀ signal ∈ rule.signals,
    ∀ item ∈ (parsedResponse services response).evidence, signalAccepts signal item = true →
      (trim item.key).length ≤ 128 ∧ (trim item.value).length ≤ 2048

theorem requiredUrl_succeeds {field text : Text} :
    (∃ url, requiredUrl field text = .ok url) ↔ trim text ≠ [] := by
  unfold requiredUrl
  by_cases blank : trim text = []
  · simp [blank]
  · simp [blank]

theorem validateStatus_succeeds {status : Nat} :
    (∃ valid, validateStatus status = .ok valid) ↔ 100 ≤ status ∧ status ≤ 599 := by
  unfold validateStatus
  by_cases valid : 100 ≤ status ∧ status ≤ 599
  · rw [if_pos valid]
    simp [valid]
  · rw [if_neg valid]
    simp [valid]

theorem redirectMetadata_succeeds {redirect : CrawlRedirect} :
    (∃ metadata, redirectMetadata services redirect = .ok metadata) ↔
      trim (services.urls.display redirect.origin.url) ≠ [] ∧
        trim (services.urls.display redirect.target.url) ≠ [] ∧
          100 ≤ redirect.status ∧ redirect.status ≤ 599 := by
  constructor
  · rintro ⟨metadata, success⟩
    obtain ⟨origin, first, success⟩ := bind_eq_ok.mp success
    obtain ⟨destination, second, success⟩ := bind_eq_ok.mp success
    obtain ⟨status, third, _⟩ := bind_eq_ok.mp success
    exact ⟨requiredUrl_succeeds.mp ⟨origin, first⟩, requiredUrl_succeeds.mp ⟨destination, second⟩,
      validateStatus_succeeds.mp ⟨status, third⟩⟩
  · rintro ⟨origin, destination, status⟩
    obtain ⟨_, first⟩ := requiredUrl_succeeds.mpr origin
    obtain ⟨_, second⟩ := requiredUrl_succeeds.mpr destination
    obtain ⟨_, third⟩ := validateStatus_succeeds.mpr status
    exact exists_bind_ok first (exists_bind_ok second (exists_bind_ok third ⟨_, rfl⟩))

theorem toDetectionEvidence_iff {item : NormalizedEvidence} (present : item.IsPresent) :
    (∃ evidence, toDetectionEvidence item = .ok evidence) ↔
      (trim item.key).length ≤ 128 ∧ (trim item.value).length ≤ 2048 := by
  constructor
  · rintro ⟨evidence, success⟩
    have new := mapError_eq_ok.mp success
    unfold DetectionEvidence.new at new
    split at new
    · cases new
    next key keyBounded =>
      split at new
      · cases new
      next value valueBounded =>
        obtain ⟨rfl, _, short⟩ := boundedRequired_eq_some keyBounded
        obtain ⟨rfl, _, short'⟩ := boundedRequired_eq_some valueBounded
        exact ⟨short, short'⟩
  · rintro ⟨key, value⟩
    have keyBounded : boundedRequired item.key 128 = some (trim item.key) :=
      if_pos ⟨present.key, key⟩
    have valueBounded : boundedRequired item.value 2048 = some (trim item.value) :=
      if_pos ⟨present.value, value⟩
    have built : DetectionEvidence.new (evidenceSource item.source) item.key item.value =
        .ok ⟨evidenceSource item.source, trim item.key, trim item.value⟩ := by
      unfold DetectionEvidence.new
      rw [keyBounded]
      dsimp only
      rw [valueBounded]
    exact ⟨_, mapError_eq_ok.mpr built⟩

theorem evaluateActive_succeeds
    (publishable : ∀ rule ∈ rules, IsPublishable services.regexes rule) :
    (∃ evaluation, evaluateActive services.regexes (parsedResponse services response) rules =
      .ok evaluation) ↔
      ∀ rule ∈ rules, ∀ signal ∈ rule.signals,
        ∀ item ∈ (parsedResponse services response).evidence, signalAccepts signal item = true →
          (trim item.key).length ≤ 128 ∧ (trim item.value).length ≤ 2048 := by
  constructor
  · rintro ⟨evaluation, success⟩ rule member signal inRule item inEvidence accepted
    obtain ⟨evaluations, evaluated, _⟩ := bind_eq_ok.mp success
    obtain ⟨own, _, ruleEvaluated⟩ := ok_of_mem_of_mapM evaluated member
    apply (toDetectionEvidence_iff (parse_present item inEvidence)).mp
    exact (evaluates_iff (publishable rule member) _).mp ⟨own, ruleEvaluated⟩ signal inRule item
      inEvidence accepted
  · intro short
    have evaluates : ∀ rule ∈ rules, ∃ evaluation, evaluateActiveRule services.regexes rule
        (parsedResponse services response) = .ok evaluation := by
      intro rule member
      apply (evaluates_iff (publishable rule member) _).mpr
      intro signal inRule item inEvidence accepted
      exact (toDetectionEvidence_iff (parse_present item inEvidence)).mpr
        (short rule member signal inRule item inEvidence accepted)
    obtain ⟨evaluations, evaluated, _⟩ := mapM_ok_of_forall evaluates
    exact exists_bind_ok evaluated ⟨_, rfl⟩

theorem snapshotMetadata_succeeds {requestedUrl finalUrl : Text}
    {redirects : List CrawlRedirectMetadata} {status : Nat} {headers : List (Text × Text)}
    {size : Nat} {capturedAt : Time} :
    (∃ snapshot, CrawlSnapshotMetadata.new requestedUrl finalUrl redirects status headers size
      capturedAt = .ok snapshot) ↔
      (∀ header ∈ headers, isSensitiveHeader header.1 = false) ∧ trim requestedUrl ≠ [] ∧
        trim finalUrl ≠ [] ∧ 100 ≤ status ∧ status ≤ 599 := by
  have plain : (headers.all fun header => !isSensitiveHeader header.1) = true ↔
      ∀ header ∈ headers, isSensitiveHeader header.1 = false := by
    simp
  constructor
  · rintro ⟨snapshot, success⟩
    obtain ⟨_, checked, success⟩ := bind_eq_ok.mp success
    obtain ⟨requested, first, success⟩ := bind_eq_ok.mp success
    obtain ⟨final, second, success⟩ := bind_eq_ok.mp success
    obtain ⟨valid, third, _⟩ := bind_eq_ok.mp success
    exact ⟨plain.mp (require_eq_ok.mp checked), requiredUrl_succeeds.mp ⟨requested, first⟩,
      requiredUrl_succeeds.mp ⟨final, second⟩, validateStatus_succeeds.mp ⟨valid, third⟩⟩
  · rintro ⟨checked, requested, final, valid⟩
    obtain ⟨_, first⟩ := requiredUrl_succeeds.mpr requested
    obtain ⟨_, second⟩ := requiredUrl_succeeds.mpr final
    obtain ⟨_, third⟩ := validateStatus_succeeds.mpr valid
    have allowed : require (headers.all fun header => !isSensitiveHeader header.1)
        CrawlSnapshotMetadataError.sensitiveHeader = .ok () := require_eq_ok.mpr (plain.mpr checked)
    exact exists_bind_ok allowed
      (exists_bind_ok first (exists_bind_ok second (exists_bind_ok third ⟨_, rfl⟩)))

theorem exists_mapError_ok {α ε ε' : Type} (rename : ε → ε') {result : Except ε α}
    (success : ∃ value, result = .ok value) : ∃ value, result.mapError rename = .ok value := by
  obtain ⟨value, rfl⟩ := success
  exact ⟨value, rfl⟩

/-- A snapshot is prepared exactly of the recordable responses. -/
theorem snapshotFromResponse_succeeds
    (publishable : ∀ rule ∈ rules, IsPublishable services.regexes rule) (capturedAt : Time) :
    (∃ prepared, snapshotFromResponse services target response capturedAt rules = .ok prepared) ↔
      Recordable services target response rules := by
  constructor
  · rintro ⟨prepared, success⟩
    obtain ⟨redirects, redirected, success⟩ := bind_eq_ok.mp success
    obtain ⟨_, body, success⟩ := bind_eq_ok.mp success
    obtain ⟨dns, dnsObserved, success⟩ := bind_eq_ok.mp success
    obtain ⟨tls, tlsObserved, success⟩ := bind_eq_ok.mp success
    obtain ⟨evaluated, evaluation, success⟩ := bind_eq_ok.mp success
    obtain ⟨snapshot, built, _⟩ := bind_eq_ok.mp success
    obtain ⟨headers, requested, final, status⟩ :=
      snapshotMetadata_succeeds.mp ⟨snapshot, mapError_eq_ok.mp built⟩
    refine ⟨requested, final, ?_, status, headers, of_decide_eq_true (require_eq_ok.mp body),
      dnsObservation_succeeds.mp ⟨dns, mapError_eq_ok.mp dnsObserved⟩,
      tlsObservation_succeeds.mp ⟨tls, mapError_eq_ok.mp tlsObserved⟩,
      (evaluateActive_succeeds publishable).mp ⟨evaluated, mapError_eq_ok.mp evaluation⟩⟩
    intro redirect member
    obtain ⟨metadata, _, own⟩ := ok_of_mem_of_mapM (mapError_eq_ok.mp redirected) member
    exact redirectMetadata_succeeds.mp ⟨metadata, own⟩
  · intro recordable
    have redirected : ∃ metadata, response.redirects.mapM (redirectMetadata services) =
        .ok metadata := by
      obtain ⟨metadata, success, _⟩ := mapM_ok_of_forall fun redirect member =>
        redirectMetadata_succeeds.mpr (recordable.redirects redirect member)
      exact ⟨metadata, success⟩
    obtain ⟨redirects, first⟩ := exists_mapError_ok WorkerProcessError.snapshot redirected
    have second : require (decide (response.body.length < 2 ^ 64)) WorkerProcessError.bodySize =
        .ok () := require_eq_ok.mpr (decide_eq_true recordable.body)
    have dnsObserved : ∃ dns, dnsObservation capturedAt response.dns = .ok dns :=
      dnsObservation_succeeds.mpr recordable.dns
    have tlsObserved : ∃ tls, tlsObservation capturedAt response.tls = .ok tls :=
      tlsObservation_succeeds.mpr recordable.tls
    have built : ∃ snapshot, CrawlSnapshotMetadata.new (services.urls.display target.url)
        (services.urls.display response.finalUrl.url) redirects response.status response.headers
        response.body.length capturedAt = .ok snapshot :=
      snapshotMetadata_succeeds.mpr ⟨recordable.headers, recordable.requested, recordable.final,
        recordable.status⟩
    obtain ⟨dns, third⟩ := exists_mapError_ok WorkerProcessError.observation dnsObserved
    obtain ⟨tls, fourth⟩ := exists_mapError_ok WorkerProcessError.observation tlsObserved
    obtain ⟨evaluated, fifth⟩ := exists_mapError_ok WorkerProcessError.detection
      ((evaluateActive_succeeds publishable).mpr recordable.evidence)
    obtain ⟨snapshot, sixth⟩ := exists_mapError_ok WorkerProcessError.snapshot built
    exact exists_bind_ok first (exists_bind_ok second (exists_bind_ok third
      (exists_bind_ok fourth (exists_bind_ok fifth (exists_bind_ok sixth ⟨_, rfl⟩)))))

end Responses

section Resolution

/-- An attempt is resolved: the processing ends well, with one record of its outcome. -/
def Resolved (run : Except WorkerProcessError Unit × List Request) : Prop :=
  run.1 = .ok () ∧ run.2.countP Request.isRecord = 1

variable {processor : Processor} {answers : Answers} {job : CrawlJobV1} {trace : List Request}

/-- Past the check of the failure, only the repository can refuse. -/
theorem recordFailure_run {failure : CrawlFailure} {code summary : Text}
    (built : CrawlFailure.new code (boundedSummary summary) = .ok failure) :
    recordFailure processor answers job code summary trace =
      (answers.failed.mapError WorkerProcessError.repository,
        .recordFailure job failure answers.finishedAt processor.schedulerSettings :: trace) := by
  unfold recordFailure
  rw [built]
  cases answers.failed <;> rfl

theorem recordFailure_resolved (recorded : answers.failed = .ok ())
    (unrecorded : trace.countP Request.isRecord = 0) {code : Text} (present : trim code ≠ [])
    (summary : Text) : Resolved (recordFailure processor answers job code summary trace) := by
  obtain ⟨failure, built⟩ := crawlFailure_new present summary
  rw [recordFailure_run built, recorded]
  refine ⟨rfl, ?_⟩
  rw [List.countP_cons, unrecorded]
  rfl

theorem recordPrepared_resolved (recorded : answers.succeeded = .ok ())
    (unrecorded : trace.countP Request.isRecord = 0) (prepared : PreparedSnapshot)
    (artifact : Option RawArtifactMetadata) :
    Resolved (recordPrepared answers job prepared artifact trace) := by
  unfold recordPrepared
  rw [recorded]
  refine ⟨rfl, ?_⟩
  change List.countP Request.isRecord (_ :: trace) = 1
  rw [List.countP_cons, unrecorded]
  rfl

/-- A response is recorded exactly if a snapshot can be prepared of it. -/
theorem processResponse_resolved_iff {target : CrawlUrl} {response : CrawlResponse}
    {rules : List ActiveDetectionRule} (listed : answers.rules = .ok rules)
    (succeeded : answers.succeeded = .ok ()) (failed : answers.failed = .ok ())
    (unrecorded : trace.countP Request.isRecord = 0) :
    Resolved (processResponse processor answers job target response trace) ↔
      ∃ prepared, snapshotFromResponse processor.services target response answers.capturedAt
        rules = .ok prepared := by
  have asked : (Request.activeDetectionRules :: trace).countP Request.isRecord = 0 := by
    rw [List.countP_cons, unrecorded]
    rfl
  unfold processResponse
  rw [listed, ask_bind, orLeave_ok_bind]
  cases prepares : snapshotFromResponse processor.services target response answers.capturedAt
      rules with
  | error reason =>
      constructor
      · intro resolved
        have ended := resolved.1
        rw [orLeave_error_bind] at ended
        cases ended
      · rintro ⟨prepared, other⟩
        cases other
  | ok prepared =>
      refine ⟨fun _ => ⟨prepared, rfl⟩, fun _ => ?_⟩
      rw [orLeave_ok_bind]
      cases prepared.persistableHtml with
      | none => exact recordPrepared_resolved succeeded asked prepared none
      | some contents =>
          dsimp only
          rw [ask_bind]
          have stored : (Request.store contents (answers.capturedAt + processor.artifactRetention)
              :: Request.activeDetectionRules :: trace).countP Request.isRecord = 0 := by
            rw [List.countP_cons, asked]
            rfl
          cases answers.stored with
          | ok artifact => exact recordPrepared_resolved succeeded stored prepared (some artifact)
          | error _ => exact recordFailure_resolved failed stored (by decide) _

/-- When no call of the repository fails, every claimed attempt is resolved except that of a
response of which no snapshot can be prepared. -/
theorem process_resolved_iff {processor : Processor} {answers : Answers}
    {domain : CanonicalDomain} {rules : List ActiveDetectionRule}
    (claimed : answers.claim = .ok (.ready domain)) (listed : answers.rules = .ok rules)
    (publishable : ∀ rule ∈ rules, IsPublishable processor.services.regexes rule)
    (succeeded : answers.succeeded = .ok ()) (failed : answers.failed = .ok ())
    (job : CrawlJobV1) :
    Resolved (process processor answers job []) ↔
      ∀ target response, CrawlUrl.parse processor.services.urls domain.text = .ok target →
        answers.politeness = .ok () → answers.fetched = .ok response →
          Recordable processor.services target response rules := by
  unfold process
  rw [claimed, ask_bind, orLeave_ok_bind]
  dsimp only
  cases parsed : CrawlUrl.parse processor.services.urls domain.text with
  | error reason =>
      refine ⟨fun _ _ _ found => (by cases found), fun _ => ?_⟩
      exact recordFailure_resolved failed rfl (by decide) _
  | ok target =>
      dsimp only
      rw [ask_bind]
      cases allowed : answers.politeness with
      | error reason =>
          refine ⟨fun _ _ _ _ polite => (by cases polite), fun _ => ?_⟩
          exact recordFailure_resolved failed rfl (failureCodeForPoliteness_present reason) _
      | ok granted =>
          dsimp only
          rw [ask_bind]
          cases fetched : answers.fetched with
          | error reason =>
              refine ⟨fun _ _ _ _ _ found => (by cases found), fun _ => ?_⟩
              exact recordFailure_resolved failed rfl (failureCodeForCrawl_present reason) _
          | ok response =>
              dsimp only
              rw [processResponse_resolved_iff listed succeeded failed rfl,
                snapshotFromResponse_succeeds publishable]
              constructor
              · rintro recordable _ _ same _ other
                cases same
                cases other
                exact recordable
              · intro recordable
                exact recordable target response rfl rfl rfl

/-- An attempt to crawl the shop: the page is fetched, and nothing fails. -/
def shopAnswers (status : Nat) : Answers where
  startedAt := 0
  capturedAt := 0
  finishedAt := 0
  claim := .ok (.ready exampleDomain)
  politeness := .ok ()
  fetched := .ok (shopResponse status)
  rules := .ok [shopRule]
  stored := .ok {
    storageLocation := locationFor (List.replicate 64 'a')
    checksumSha256 := List.replicate 64 'a'
    compression := .zstd
    uncompressedSizeBytes := 52
    compressedSizeBytes := 40
    retentionExpiresAt := 1000 }
  succeeded := .ok ()
  failed := .ok ()

theorem one_attempt : (0 : UInt8) < 1 := by decide

def shopProcessor : Processor where
  services := shopServices
  politenessDelay := 0
  artifactRetention := 0
  schedulerSettings := ⟨0, 1, 1, 1, Nat.one_pos, one_attempt, Nat.one_pos⟩

theorem shopRule_publishable : IsPublishable shopServices.regexes shopRule :=
  ⟨rfl, by decide, by decide, by decide, by decide⟩

theorem shop_resolved :
    Resolved (process shopProcessor (shopAnswers 200) (newJobWithCorrelation 1 12 11) []) ∧
      ∀ target response, CrawlUrl.parse shopServices.urls exampleDomain.text = .ok target →
        (shopAnswers 200).politeness = .ok () → (shopAnswers 200).fetched = .ok response →
          Recordable shopServices target response [shopRule] := by
  have resolved : Resolved (process shopProcessor (shopAnswers 200) (newJobWithCorrelation 1 12 11)
      []) := ⟨by decide +kernel, by decide +kernel⟩
  have publishable : ∀ rule ∈ [shopRule], IsPublishable shopServices.regexes rule := by
    intro rule member
    rw [List.mem_singleton.mp member]
    exact shopRule_publishable
  exact ⟨resolved, (@process_resolved_iff shopProcessor (shopAnswers 200) exampleDomain [shopRule]
    rfl rfl publishable rfl rfl (newJobWithCorrelation 1 12 11)).mp resolved⟩

/-- A site that answers with the status 700 ends the processing without a record. -/
theorem unknownStatus_unresolved :
    (shopAnswers 700).claim = .ok (.ready exampleDomain) ∧
      (shopAnswers 700).rules = .ok [shopRule] ∧ (shopAnswers 700).succeeded = .ok () ∧
      (shopAnswers 700).failed = .ok () ∧
      ¬Resolved (process shopProcessor (shopAnswers 700) (newJobWithCorrelation 1 12 11) []) := by
  refine ⟨rfl, rfl, rfl, rfl, ?_⟩
  rintro ⟨_, recorded⟩
  have unrecorded : (process shopProcessor (shopAnswers 700) (newJobWithCorrelation 1 12 11)
      []).2.countP Request.isRecord = 0 := by decide +kernel
  rw [unrecorded] at recorded
  cases recorded

end Resolution

section Recording

/-- Whatever the error text, the failure is built and handed to the repository. Its
summary fits, and but for white space at its end it is the longest part of the
text that does. -/
theorem failure_summary_fits (processor : Processor) (answers : Answers) (job : CrawlJobV1)
    (trace : List Request) {code : Text} (present : trim code ≠ []) (summary : Text) :
    ∃ failure, CrawlFailure.new code (boundedSummary summary) = .ok failure ∧
      utf8Length failure.summary ≤ 1024 ∧
      (trim summary = [] → failure.summary = "crawl processing failed".toList) ∧
      (trim summary ≠ [] → ∃ white : Text, (∀ c ∈ white, isWhitespace c = true) ∧
        LongestPrefix 1024 (trim summary) (failure.summary ++ white)) ∧
      recordFailure processor answers job code summary trace =
        (answers.failed.mapError WorkerProcessError.repository,
          .recordFailure job failure answers.finishedAt processor.schedulerSettings :: trace) := by
  obtain ⟨nonblank, short⟩ := boundedSummary_bounded summary
  have built : ∃ failure, CrawlFailure.new code (boundedSummary summary) = .ok failure ∧
      failure.summary = trim (boundedSummary summary) := by
    unfold CrawlFailure.new
    rw [dif_neg present, dif_neg nonblank, dif_neg (Nat.not_lt.mpr short)]
    exact ⟨_, rfl, rfl⟩
  obtain ⟨failure, built, isTrimmed⟩ := built
  refine ⟨failure, built, failure.summary_bounded, ?_, ?_, recordFailure_run built⟩
  · intro blank
    rw [isTrimmed, boundedSummary_blank blank]
    decide
  · intro present
    obtain ⟨white, isWhite, whole⟩ := trim_takeBytes 1024 summary
    refine ⟨white, isWhite, ?_⟩
    rw [isTrimmed, boundedSummary_present present, whole]
    exact takeBytes_longest 1024 (trim summary)

/-- 600 accented letters, each of two bytes, after a space. -/
def accents : Text := ' ' :: List.replicate 600 'é'

theorem failure_summary_fits_accents :
    ∃ failure, CrawlFailure.new "network_failure".toList (boundedSummary accents) = .ok failure ∧
      utf8Length failure.summary ≤ 1024 ∧
      ∃ white : Text, LongestPrefix 1024 (trim accents) (failure.summary ++ white) := by
  have code : trim "network_failure".toList ≠ [] := by
    decide
  have text : trim accents ≠ [] :=
    trim_ne_nil (List.mem_cons_of_mem _ (List.mem_replicate.mpr ⟨by decide, rfl⟩))
      (show isWhitespace 'é' = false by decide)
  obtain ⟨failure, built, fits, _, longest, _⟩ := failure_summary_fits shopProcessor
    (shopAnswers 200) (newJobWithCorrelation 1 12 11) [] code accents
  obtain ⟨white, _, isLongest⟩ := longest text
  exact ⟨failure, built, fits, white, isLongest⟩

end Recording

end TechAtlas.Worker
