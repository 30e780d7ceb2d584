import TechAtlas.Acquisition.Address
import TechAtlas.Acquisition.Robots
import TechAtlas.Library.Dialogue
import TechAtlas.Scheduling

set_option autoImplicit false

/- `Crawler`: a fetch of one target, from its robots.txt to the TLS probes of the
page it ends at. Resolver, transport and TLS peers are one environment that
knows every exchange so far. -/
namespace TechAtlas.Acquisition

open Library

section Config

structure CrawlerConfig where
  userAgent : Text
  robotsUserAgent : Text
  contact : Text
  connectTimeout : Duration
  readTimeout : Duration
  totalTimeout : Duration
  dnsTimeout : Duration
  dnsMaxAddresses : Nat
  tlsTimeout : Duration
  tlsMaxAddresses : Nat
  maxRedirects : Nat
  maxResponseBytes : Nat
  politenessDelay : Duration
  deriving DecidableEq, Repr

def CrawlerConfig.default : CrawlerConfig where
  userAgent := "TechAtlas/0.1".toList
  robotsUserAgent := "TechAtlas".toList
  contact := "mailto:ops@techatlas.invalid".toList
  connectTimeout := secondsOf 5
  readTimeout := secondsOf 15
  totalTimeout := secondsOf 30
  dnsTimeout := secondsOf 5
  dnsMaxAddresses := 16
  tlsTimeout := secondsOf 5
  tlsMaxAddresses := 4
  maxRedirects := 10
  maxResponseBytes := 10 * 1024 * 1024
  politenessDelay := secondsOf 1

inductive CrawlerConfigError
  | emptyUserAgent
  | invalidUserAgent
  | emptyRobotsUserAgent
  | emptyContact
  | zeroTimeout
  | zeroTlsAddressLimit
  | zeroDnsAddressLimit
  | zeroRedirectLimit
  | zeroBodyLimit
  | zeroPolitenessDelay
  deriving DecidableEq, Repr

/-- `HeaderValue::from_str` accepts the text: no control character but the tab. -/
def isHeaderValue (text : Text) : Bool :=
  text.all fun c => c == '\t' || (32 ≤ c.toNat && c.toNat != 127)

def CrawlerConfig.validate (config : CrawlerConfig) : Except CrawlerConfigError Unit :=
  if trim config.userAgent = [] then .error .emptyUserAgent
  else if !isHeaderValue (config.userAgent ++ " (+".toList ++ config.contact ++ ")".toList) then
    .error .invalidUserAgent
  else if trim config.robotsUserAgent = [] then .error .emptyRobotsUserAgent
  else if trim config.contact = [] then .error .emptyContact
  else if config.connectTimeout = 0 ∨ config.readTimeout = 0 ∨ config.totalTimeout = 0 ∨
      config.dnsTimeout = 0 ∨ config.tlsTimeout = 0 then .error .zeroTimeout
  else if config.maxRedirects = 0 then .error .zeroRedirectLimit
  else if config.tlsMaxAddresses = 0 then .error .zeroTlsAddressLimit
  else if config.dnsMaxAddresses = 0 then .error .zeroDnsAddressLimit
  else if config.maxResponseBytes = 0 then .error .zeroBodyLimit
  else if config.politenessDelay = 0 then .error .zeroPolitenessDelay
  else .ok ()

/-- A crawler is built from a configuration that passes its check. -/
structure Crawler where
  config : CrawlerConfig
  config_valid : config.validate = .ok ()
  tlsCaptureEnabled : Bool

def Crawler.new (config : CrawlerConfig) : Except CrawlerConfigError Crawler :=
  match valid : config.validate with
  | .error error => .error error
  | .ok () => .ok ⟨config, valid, false⟩

def Crawler.withSystemResolver (config : CrawlerConfig) : Except CrawlerConfigError Crawler := do
  let crawler ← Crawler.new config
  return { crawler with tlsCaptureEnabled := true }

end Config

section Messages

structure HttpResponse where
  status : Nat
  headers : List (Text × Text)
  body : List UInt8
  deriving DecidableEq, Repr

def HttpResponse.header (response : HttpResponse) (name : Text) : Option Text :=
  response.headers.lookup (asciiLowercase name)

/-- `request` is an error of the HTTP client, which tells timeouts from others. -/
inductive HttpTransportError
  | cancelled
  | request (isTimeout : Bool)
  | responseTooLarge (limit observed : Nat)
  | failed (message : Text)
  deriving DecidableEq, Repr

inductive TlsValidation
  | verified
  | failed
  deriving DecidableEq, Repr

structure TlsCapture where
  validation : TlsValidation
  protocol : Option Text
  cipherSuite : Option Text
  certificateSubject : Option Text
  certificateIssuer : Option Text
  subjectAlternativeNames : List Text
  certificateNotBefore : Option Time
  certificateNotAfter : Option Time
  deriving DecidableEq, Repr

inductive TlsProbeError
  | connection
  | invalidCertificate
  deriving DecidableEq, Repr

inductive CaptureUnavailableReason
  | notCaptured
  | notApplicable
  | timeout
  | connectionFailed
  | invalid
  deriving DecidableEq, Repr

inductive Capture (α : Type)
  | captured (value : α)
  | unavailable (reason : CaptureUnavailableReason)
  deriving DecidableEq, Repr

structure DnsCapture where
  queriedName : Text
  addresses : List IpAddr
  deriving DecidableEq, Repr

structure CrawlRedirect where
  origin : CrawlUrl
  target : CrawlUrl
  status : Nat

structure CrawlResponse where
  finalUrl : CrawlUrl
  resolvedAddresses : List IpAddr
  redirects : List CrawlRedirect
  status : Nat
  headers : List (Text × Text)
  body : List UInt8
  dns : Capture DnsCapture
  tls : Capture TlsCapture

inductive CrawlError
  | cancelled
  | timeout
  | dns (source : DnsSafetyError)
  | transport (source : HttpTransportError)
  | responseTooLarge (limit observed : Nat)
  | redirectLimitExceeded (limit : Nat)
  | missingRedirectLocation
  | invalidRedirectTarget (source : CrawlUrlError)
  | robotsDenied (target : Text)
  | robotsUnavailable (reason : Text)
  deriving DecidableEq, Repr

def tooLargeMessage (limit observed : Nat) : Text :=
  "response body exceeded the ".toList ++ (toString limit).toList ++ "-byte limit (".toList ++
    (toString observed).toList ++ " bytes)".toList

def HttpTransportError.message : HttpTransportError → Text
  | .cancelled => "HTTP request was cancelled".toList
  | .request _ => "HTTP request failed".toList
  | .responseTooLarge limit observed => tooLargeMessage limit observed
  | .failed message => "HTTP transport failed: ".toList ++ message

def CrawlError.message : CrawlError → Text
  | .cancelled => "crawl was cancelled".toList
  | .timeout => "crawl request timed out".toList
  | .dns source => source.message
  | .transport source => source.message
  | .responseTooLarge limit observed => tooLargeMessage limit observed
  | .redirectLimitExceeded limit =>
      "redirect limit of ".toList ++ (toString limit).toList ++ " exceeded".toList
  | .missingRedirectLocation =>
      "redirect response did not include a valid Location header".toList
  | .invalidRedirectTarget _ => "redirect target is invalid".toList
  | .robotsDenied target => "robots policy denies ".toList ++ target
  | .robotsUnavailable reason =>
      "robots policy could not be safely obtained: ".toList ++ reason

def mapRobotsFetchError : CrawlError → CrawlError
  | .cancelled => .cancelled
  | .dns (.blockedAddress host address) => .dns (.blockedAddress host address)
  | other => .robotsUnavailable other.message

def mapTransportError : HttpTransportError → CrawlError
  | .cancelled => .cancelled
  | .request isTimeout => if isTimeout then .timeout else .transport (.request isTimeout)
  | .responseTooLarge limit observed => .responseTooLarge limit observed
  | other => .transport other

def isRedirect (status : Nat) : Bool := 300 ≤ status && status < 400

end Messages

section Environment

/-- How a future that races the cancellation token and a timeout ends. -/
inductive Outcome (α : Type)
  | cancelled
  | timedOut
  | completed (value : α)
  deriving DecidableEq, Repr

/-- An answer of `none` is a request that was cancelled in flight. -/
inductive Event
  | resolved (host : Text) (answer : Outcome (Except DnsResolverError (List SocketAddr)))
  | requested (target : CrawlUrl) (answer : Option (Except HttpTransportError HttpResponse))
  | probed (host : Text) (address : SocketAddr) (verifyCertificate : Bool)
      (answer : Outcome (Except TlsProbeError TlsCapture))

/-- What the resolver, the transport and TLS peers answer, and when the caller
cancels. -/
structure World where
  cancelled : List Event → Bool
  resolve : List Event → Text → Outcome (Except DnsResolverError (List SocketAddr))
  get : List Event → CrawlUrl → Nat → Option (Except HttpTransportError HttpResponse)
  handshake : List Event → Text → SocketAddr → Bool → Outcome (Except TlsProbeError TlsCapture)

abbrev Crawling := Dialogue Event CrawlError

end Environment

section Fetch

open Dialogue

variable (crate : UrlCrate) (world : World) (crawler : Crawler)

/-- Sorted, without duplicates and cut off at the limit. -/
def publicAddresses (addresses : List SocketAddr) : List IpAddr :=
  (((addresses.map SocketAddr.ip).insertionSort fun left right => left.le right).destutter
    (· ≠ ·)).take crawler.config.dnsMaxAddresses

def validateTarget (target : CrawlUrl) : Crawling (List IpAddr) := do
  if ← observe world.cancelled then fail .cancelled
  else
    match ← exchange (world.resolve · target.host) (.resolved target.host) with
    | .cancelled => fail .cancelled
    | .timedOut => fail (.dns .timeout)
    | .completed (.error error) => fail (.dns (.resolution error))
    | .completed (.ok addresses) =>
        match validateAddresses target.host addresses with
        | .error error => fail (.dns error)
        | .ok () => pure (publicAddresses crawler addresses)

/-- The addresses and the response of one pass of the loop in `fetch_unchecked`. -/
def acquire (target : CrawlUrl) : Crawling (List IpAddr × HttpResponse) := do
  let resolvedAddresses ← validateTarget world crawler target
  if ← observe world.cancelled then fail .cancelled
  else
    match ← exchange (world.get · target crawler.config.maxResponseBytes) (.requested target) with
    | none => fail .cancelled
    | some (.error error) => fail (mapTransportError error)
    | some (.ok response) =>
        if crawler.config.maxResponseBytes < response.body.length then
          fail (.responseTooLarge crawler.config.maxResponseBytes response.body.length)
        else pure (resolvedAddresses, response)

def tlsHandshake (host : Text) (address : SocketAddr) (verifyCertificate : Bool) :
    Crawling (Outcome (Except TlsProbeError TlsCapture)) :=
  exchange (world.handshake · host address verifyCertificate)
    (.probed host address verifyCertificate)

/-- The loop over the candidates, with the first capture made without verification. -/
def probeTls (host : Text) (port : Nat) :
    List IpAddr → Option TlsCapture → Crawling (Capture TlsCapture)
  | [], fallback => pure (match fallback with
      | some capture => .captured capture
      | none => .unavailable .connectionFailed)
  | address :: rest, fallback => do
      match ← tlsHandshake world host ⟨address, port⟩ true with
      | .cancelled => pure (.unavailable .connectionFailed)
      | .timedOut => pure (.unavailable .timeout)
      | .completed (.ok capture) => pure (.captured capture)
      | .completed (.error _) =>
          match ← tlsHandshake world host ⟨address, port⟩ false with
          | .cancelled => pure (.unavailable .connectionFailed)
          | .timedOut => pure (.unavailable .timeout)
          | .completed (.ok capture) => probeTls host port rest (fallback.or (some capture))
          | .completed (.error _) => probeTls host port rest fallback

/-- `Url::port_or_known_default` for the two schemes of a crawl target. -/
def portOrKnownDefault (url : Url) : Nat :=
  url.port.getD (if url.scheme = "http".toList then 80 else 443)

def captureTls (target : CrawlUrl) (addresses : List IpAddr) : Crawling (Capture TlsCapture) :=
  if !crawler.tlsCaptureEnabled then pure (.unavailable .notCaptured)
  else if target.url.scheme ≠ "https".toList then pure (.unavailable .notApplicable)
  else
    let candidates := addresses.take crawler.config.tlsMaxAddresses
    if candidates = [] then pure (.unavailable .invalid)
    else do
      if ← observe world.cancelled then pure (.unavailable .connectionFailed)
      else probeTls world target.host (portOrKnownDefault target.url) candidates none

def finish (captureOptionalFacts : Bool) (target : CrawlUrl) (redirectChain : List CrawlRedirect)
    (resolvedAddresses : List IpAddr) (response : HttpResponse) : Crawling CrawlResponse := do
  let tls ← if captureOptionalFacts then captureTls world crawler target resolvedAddresses
    else pure (.unavailable .notCaptured)
  pure {
    finalUrl := target
    resolvedAddresses := resolvedAddresses
    redirects := redirectChain
    status := response.status
    headers := response.headers
    body := response.body
    dns := if captureOptionalFacts then .captured ⟨target.host, resolvedAddresses⟩
      else .unavailable .notCaptured
    tls := tls }

/-- Where a redirect leads. -/
def nextTarget (target : CrawlUrl) (response : HttpResponse) : Except CrawlError CrawlUrl :=
  match response.header "location".toList with
  | none => .error .missingRedirectLocation
  | some location => (target.redirectTarget crate location).mapError .invalidRedirectTarget

/-- The loop of `fetch_unchecked`, with the number of redirects it still follows. -/
def fetchLoop (captureOptionalFacts : Bool) :
    Nat → CrawlUrl → List CrawlRedirect → Crawling CrawlResponse
  | remaining, target, redirectChain => do
      let (resolvedAddresses, response) ← acquire world crawler target
      if isRedirect response.status then
        match remaining with
        | 0 => fail (.redirectLimitExceeded crawler.config.maxRedirects)
        | remaining + 1 =>
            match nextTarget crate target response with
            | .error error => fail error
            | .ok next =>
                fetchLoop captureOptionalFacts remaining next
                  (redirectChain ++ [⟨target, next, response.status⟩])
      else finish world crawler captureOptionalFacts target redirectChain resolvedAddresses response

def fetchUnchecked (initial : CrawlUrl) (captureOptionalFacts : Bool) : Crawling CrawlResponse :=
  fetchLoop crate world crawler captureOptionalFacts crawler.config.maxRedirects initial []

/-- What the response to the request for robots.txt means. -/
def readRobots (response : CrawlResponse) : Except CrawlError RobotsPolicy :=
  if response.status = 404 then .ok .allowAll
  else if !(200 ≤ response.status && response.status < 300) then
    .error (.robotsUnavailable
      ("robots.txt returned HTTP ".toList ++ (toString response.status).toList))
  else
    match decodeUtf8 response.body with
    | none => .error (.robotsUnavailable "robots.txt was not valid UTF-8".toList)
    | some content =>
        (RobotsPolicy.parse crawler.config.robotsUserAgent content).mapError
          fun error => .robotsUnavailable error.message

def robotsPolicy (target : CrawlUrl) : Crawling RobotsPolicy := do
  if ← observe world.cancelled then fail .cancelled
  else
    match target.robotsUrl with
    | .error source => fail (.robotsUnavailable source.message)
    | .ok robotsUrl =>
        let response ← mapError mapRobotsFetchError
          (fetchUnchecked crate world crawler robotsUrl false)
        match readRobots crawler response with
        | .error error => fail error
        | .ok policy => pure policy

def fetch (target : CrawlUrl) : Crawling CrawlResponse := do
  if ← observe world.cancelled then fail .cancelled
  else
    let robots ← robotsPolicy crate world crawler target
    if robots.allows target then fetchUnchecked crate world crawler target true
    else fail (.robotsDenied (crate.display target.url))

end Fetch

end TechAtlas.Acquisition
