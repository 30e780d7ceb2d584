import TechAtlas.Acquisition.Redirects
import TechAtlas.Acquisition.Compliance
import TechAtlas.Worker.Process
import TechAtlas.Admin.Authorization

set_option autoImplicit false

/- `ReqwestHttpTransport`: how an answer of a server becomes the response that a fetch
sees. The body arrives in chunks and has a limit; headers that may carry a credential
stay behind. -/
namespace TechAtlas.Acquisition

open Library Dialogue

section Headers

/-- The characters of a header name, which is kept in lower case: visible ASCII but the
delimiters, of which two are braces. -/
def isHeaderNameChar (c : Char) : Bool :=
  (33 ≤ c.toNat && c.toNat < 127) && !c.isUpper &&
    !("\"(),/:;<=>?@[\\]".toList.contains c || c.toNat == 123 || c.toNat == 125)

structure HeaderName where
  text : Text
  token : text.all isHeaderNameChar = true

abbrev HeaderMap := List (HeaderName × List UInt8)

/-- The crawler's own copy of the check. -/
def isSensitiveHeader (name : Text) : Bool := Parser.isSensitiveHeader name

def safeHeader (header : HeaderName × List UInt8) : Option (Text × Text) :=
  let name := asciiLowercase header.1.text
  if isSensitiveHeader name then none
  else (Admin.headerText header.2).map fun value => (name, value)

/-- `BTreeMap::insert`. -/
def insertHeader (headers : List (Text × Text)) (header : Text × Text) : List (Text × Text) :=
  match headers with
  | [] => [header]
  | first :: rest =>
      if header.1 < first.1 then header :: first :: rest
      else if header.1 = first.1 then header :: rest
      else first :: insertHeader rest header

def safeHeaders (headers : HeaderMap) : List (Text × Text) :=
  (headers.filterMap safeHeader).foldl insertHeader []

end Headers

section Bodies

/-- What comes next: a part of the body, the cancellation of the crawl, or an error of the
client. -/
inductive Arrival
  | chunk (bytes : List UInt8)
  | cancelled
  | failed (isTimeout : Bool)
  deriving DecidableEq

/-- `as u64` and `saturating_add`. -/
def saturatingAdd (left right : Nat) : Nat := min (left + right) (2 ^ 64 - 1)

/-- The loop over the chunks. -/
def readBody (limit : Nat) : List UInt8 → List Arrival → Except HttpTransportError (List UInt8)
  | body, [] => .ok body
  | _, .cancelled :: _ => .error .cancelled
  | _, .failed isTimeout :: _ => .error (.request isTimeout)
  | body, .chunk bytes :: rest =>
      let observed := saturatingAdd body.length bytes.length
      if limit < observed then .error (.responseTooLarge limit observed)
      else readBody limit (body ++ bytes) rest

end Bodies

section Transport

structure WireResponse where
  status : Nat
  contentLength : Option Nat
  headers : HeaderMap
  arrivals : List Arrival

inductive Reply
  | cancelled
  | failed (isTimeout : Bool)
  | answered (response : WireResponse)

/-- With what the client reports of the server. -/
def ReqwestHttpTransport.get (maxResponseBytes : Nat) :
    Reply → Except HttpTransportError HttpResponse
  | .cancelled => .error .cancelled
  | .failed isTimeout => .error (.request isTimeout)
  | .answered response =>
      match response.contentLength.filter fun length => decide (maxResponseBytes < length) with
      | some length => .error (.responseTooLarge maxResponseBytes length)
      | none => do
          let body ← readBody maxResponseBytes [] response.arrivals
          .ok {
            status := response.status
            headers := safeHeaders response.headers
            body := body }

/-- The world in which requests go over the transport. -/
def World.over (world : World) (server : List Event → CrawlUrl → Reply) : World where
  cancelled := world.cancelled
  resolve := world.resolve
  get := fun trace target limit => some (ReqwestHttpTransport.get limit (server trace target))
  handshake := world.handshake

end Transport

section Confinement

theorem isHeaderNameChar_kept {c : Char} (plain : isHeaderNameChar c = true) :
    c.toLower = c ∧ isWhitespace c = false := by
  simp only [isHeaderNameChar, Bool.and_eq_true, decide_eq_true_eq, Bool.not_eq_true'] at plain
  refine ⟨toLower_of_not_isUpper plain.1.2, ?_⟩
  unfold isWhitespace
  simp only [Bool.or_eq_false_iff, Bool.and_eq_false_imp, decide_eq_true_eq,
    decide_eq_false_iff_not, beq_eq_false_iff_ne]
  omega

theorem HeaderName.lowercase (name : HeaderName) : asciiLowercase name.text = name.text := by
  have plain := List.all_eq_true.mp name.token
  rw [asciiLowercase]
  calc name.text.map Char.toLower = name.text.map id :=
        List.map_congr_left fun c member => (isHeaderNameChar_kept (plain c member)).1
    _ = name.text := List.map_id _

theorem HeaderName.trimmed (name : HeaderName) : trim name.text = name.text :=
  trim_eq_self fun c member =>
    (isHeaderNameChar_kept (List.all_eq_true.mp name.token c member)).2

theorem mem_insertHeader {headers : List (Text × Text)} {header other : Text × Text}
    (member : other ∈ insertHeader headers header) : other = header ∨ other ∈ headers := by
  induction headers with
  | nil => exact Or.inl (List.mem_singleton.mp member)
  | cons first rest ih =>
      unfold insertHeader at member
      split at member
      · exact List.mem_cons.mp member
      · split at member
        · rcases List.mem_cons.mp member with same | later
          · exact Or.inl same
          · exact Or.inr (List.mem_cons_of_mem _ later)
        · rcases List.mem_cons.mp member with same | later
          · exact Or.inr (same ▸ List.mem_cons_self)
          · rcases ih later with same | old
            · exact Or.inl same
            · exact Or.inr (List.mem_cons_of_mem _ old)

/-- The names of a map differ and are in order. -/
def Sorted (headers : List (Text × Text)) : Prop :=
  headers.Pairwise fun first second => first.1 < second.1

theorem insertHeader_sorted {headers : List (Text × Text)} (sorted : Sorted headers)
    (header : Text × Text) : Sorted (insertHeader headers header) := by
  induction headers with
  | nil => exact List.pairwise_singleton _ _
  | cons first rest ih =>
      obtain ⟨before, sortedRest⟩ := List.pairwise_cons.mp sorted
      unfold insertHeader
      split
      · rename_i smaller
        refine List.pairwise_cons.mpr ⟨?_, sorted⟩
        intro other member
        rcases List.mem_cons.mp member with rfl | later
        · exact smaller
        · exact lt_trans smaller (before other later)
      · rename_i notSmaller
        split
        · rename_i same
          refine List.pairwise_cons.mpr ⟨?_, sortedRest⟩
          intro other member
          rw [same]
          exact before other member
        · rename_i different
          refine List.pairwise_cons.mpr ⟨?_, ih sortedRest⟩
          intro other member
          rcases mem_insertHeader member with rfl | old
          · exact lt_of_le_of_ne (not_lt.mp notSmaller) (Ne.symm different)
          · exact before other old

theorem safeHeaders_sorted (headers : HeaderMap) : Sorted (safeHeaders headers) := by
  have general : ∀ (pairs collected : List (Text × Text)), Sorted collected →
      Sorted (pairs.foldl insertHeader collected) := by
    intro pairs
    induction pairs with
    | nil => exact fun _ sorted => sorted
    | cons pair pairs ih => exact fun _ sorted => ih _ (insertHeader_sorted sorted pair)
  exact general _ [] List.Pairwise.nil

theorem mem_safeHeaders {headers : HeaderMap} {header : Text × Text}
    (member : header ∈ safeHeaders headers) :
    ∃ wire ∈ headers, safeHeader wire = some header := by
  have general : ∀ (pairs collected : List (Text × Text)),
      header ∈ pairs.foldl insertHeader collected → header ∈ pairs ∨ header ∈ collected := by
    intro pairs
    induction pairs with
    | nil => exact fun _ inCollected => Or.inr inCollected
    | cons pair pairs ih =>
        intro collected inAll
        rcases ih _ inAll with later | earlier
        · exact Or.inl (List.mem_cons_of_mem _ later)
        · rcases mem_insertHeader earlier with same | old
          · exact Or.inl (same ▸ List.mem_cons_self)
          · exact Or.inr old
  rcases general _ [] member with listed | absent
  · exact List.mem_filterMap.mp listed
  · cases absent

/-- What the transport lets through, the snapshot's own check accepts. -/
theorem safeHeaders_accepted {headers : HeaderMap} {header : Text × Text}
    (member : header ∈ safeHeaders headers) : Worker.isSensitiveHeader header.1 = false := by
  obtain ⟨wire, _, safe⟩ := mem_safeHeaders member
  unfold safeHeader at safe
  dsimp only at safe
  rw [wire.1.lowercase] at safe
  split at safe
  · cases safe
  · rename_i plain
    obtain ⟨value, _, rfl⟩ := Option.map_eq_some_iff.mp safe
    rw [Worker.isSensitiveHeader, wire.1.trimmed, wire.1.lowercase]
    exact Bool.eq_false_of_not_eq_true plain

/-- A body is delivered whole or not at all. -/
theorem readBody_eq_ok {limit : Nat} {body result : List UInt8} {arrivals : List Arrival}
    (success : readBody limit body arrivals = .ok result) :
    ∃ parts : List (List UInt8), arrivals = parts.map Arrival.chunk ∧
      result = body ++ parts.flatten := by
  induction arrivals generalizing body with
  | nil =>
      cases success
      exact ⟨[], rfl, (List.append_nil _).symm⟩
  | cons arrival rest ih =>
      cases arrival with
      | cancelled => cases success
      | failed isTimeout => cases success
      | chunk bytes =>
          rw [readBody] at success
          split at success
          · cases success
          · obtain ⟨parts, rfl, whole⟩ := ih success
            exact ⟨bytes :: parts, rfl, by rw [whole, List.append_assoc, List.flatten_cons]⟩

end Confinement

section Fetches

variable {crate : UrlCrate} {world : World} {crawler : Crawler}

/-- What a program returns satisfies the condition at the trace it ends with. -/
abbrev Returns {α : Type} (program : Crawling α) (post : α → List Event → Prop) : Prop :=
  Triple (fun _ => True) program post fun _ _ => True

/-- The target has been requested along the trace, and the world has given the answer at
that moment, within the limit. -/
def Replied (world : World) (crawler : Crawler) (target : CrawlUrl) (reply : HttpResponse)
    (trace : List Event) : Prop :=
  ∃ earlier, .requested target (some (.ok reply)) :: earlier <:+ trace ∧
    world.get earlier target crawler.config.maxResponseBytes = some (.ok reply) ∧
    reply.body.length ≤ crawler.config.maxResponseBytes

theorem Replied.cons {target : CrawlUrl} {reply : HttpResponse} {trace : List Event}
    (answered : Replied world crawler target reply trace) (event : Event) :
    Replied world crawler target reply (event :: trace) := by
  obtain ⟨earlier, along, got, fits⟩ := answered
  exact ⟨earlier, along.trans (List.suffix_cons event trace), got, fits⟩

/-- The response is an answer of the world along the trace. -/
def Delivered (world : World) (crawler : Crawler) (response : CrawlResponse)
    (trace : List Event) : Prop :=
  ∃ reply, Replied world crawler response.finalUrl reply trace ∧
    response.status = reply.status ∧ response.headers = reply.headers ∧
    response.body = reply.body

theorem validateTarget_returns (target : CrawlUrl) :
    Returns (validateTarget world crawler target) fun _ _ => True := by
  intro trace _
  split <;> trivial

theorem acquire_returns (target : CrawlUrl) :
    Returns (acquire world crawler target) fun acquired =>
      Replied world crawler target acquired.2 := by
  unfold acquire
  apply Triple.bind (validateTarget_returns target)
  intro resolved
  apply Triple.observe
  intro cancelled
  split
  · exact Triple.fail fun _ _ => trivial
  · apply Triple.exchange
    intro answer
    split
    · exact Triple.fail fun _ _ => trivial
    · exact Triple.fail fun _ _ => trivial
    · rename_i reply
      split
      · exact Triple.fail fun _ _ => trivial
      · rename_i fits
        apply Triple.pure
        rintro _ ⟨earlier, rfl, _, answered⟩
        exact ⟨earlier, List.suffix_refl _, answered, Nat.le_of_not_lt fits⟩

/-- The TLS probes come after the answer. -/
theorem finish_returns (captureOptionalFacts : Bool) (target : CrawlUrl)
    (redirectChain : List CrawlRedirect) (resolved : List IpAddr) (reply : HttpResponse) :
    Triple (Replied world crawler target reply)
      (finish world crawler captureOptionalFacts target redirectChain resolved reply)
      (Delivered world crawler) fun _ _ => True := by
  cases captureOptionalFacts with
  | false =>
      apply Triple.pure
      exact fun _ answered => ⟨reply, answered, rfl, rfl, rfl⟩
  | true =>
      have probed : Triple (Replied world crawler target reply)
          (captureTls world crawler target resolved)
          (fun _ => Replied world crawler target reply) fun _ _ => True :=
        (captureTls_triple target resolved fun _ answered _ _ _ _ _ => answered.cons _).conseq
          (fun _ holds => holds) (fun _ _ after => after) fun _ _ impossible => impossible.elim
      apply Triple.bind probed
      intro tls
      apply Triple.pure
      exact fun _ answered => ⟨reply, answered, rfl, rfl, rfl⟩

/-- Every pass of the loop ends at its own answer. -/
theorem fetchLoop_returns (captureOptionalFacts : Bool) (remaining : Nat) (target : CrawlUrl)
    (redirectChain : List CrawlRedirect) :
    Returns (fetchLoop crate world crawler captureOptionalFacts remaining target redirectChain)
      (Delivered world crawler) := by
  induction remaining generalizing target redirectChain with
  | zero =>
      unfold fetchLoop
      apply Triple.bind (acquire_returns target)
      rintro ⟨resolved, reply⟩
      dsimp only
      split
      · exact Triple.fail fun _ _ => trivial
      · exact finish_returns captureOptionalFacts target redirectChain resolved reply
  | succ remaining ih =>
      unfold fetchLoop
      apply Triple.bind (acquire_returns target)
      rintro ⟨resolved, reply⟩
      dsimp only
      split
      · cases nextTarget crate target reply with
        | error error => exact Triple.fail fun _ _ => trivial
        | ok next => exact fun trace _ => ih next _ trace trivial
      · exact finish_returns captureOptionalFacts target redirectChain resolved reply

theorem fetch_returns (target : CrawlUrl) :
    Returns (fetch crate world crawler target) (Delivered world crawler) := by
  have robotsRead : Returns (robotsPolicy crate world crawler target) fun _ _ => True := by
    intro trace _
    split <;> trivial
  apply Triple.observe
  intro cancelled
  split
  · exact Triple.fail fun _ _ => trivial
  · apply Triple.bind (robotsRead.conseq (fun _ _ => trivial) (fun _ _ after => after)
      fun _ _ failed => failed)
    intro robots
    split
    · exact fun trace _ => fetchLoop_returns true _ target [] trace trivial
    · exact Triple.fail fun _ _ => trivial

theorem get_eq_ok {limit : Nat} {reply : Reply} {response : HttpResponse}
    (success : ReqwestHttpTransport.get limit reply = .ok response) :
    ∃ (wire : WireResponse) (parts : List (List UInt8)), reply = .answered wire ∧
      wire.arrivals = parts.map Arrival.chunk ∧ response.status = wire.status ∧
      response.headers = safeHeaders wire.headers ∧ response.body = parts.flatten := by
  cases reply with
  | cancelled => cases success
  | failed isTimeout => cases success
  | answered wire =>
      rw [ReqwestHttpTransport.get] at success
      split at success
      · cases success
      · obtain ⟨body, read, same⟩ := bind_eq_ok.mp success
        cases same
        obtain ⟨parts, chunks, whole⟩ := readBody_eq_ok read
        exact ⟨wire, parts, rfl, chunks, rfl, rfl, whole⟩

/-- Whatever servers answer, a page that a fetch over the transport returns is the whole
body that its server sent when the fetch requested it, within the limit, and none of its
headers is one that the snapshot of the page would be refused for. -/
theorem fetched_whole_and_safe (crate : UrlCrate) (world : World)
    (server : List Event → CrawlUrl → Reply) (crawler : Crawler) (target : CrawlUrl)
    {response : CrawlResponse}
    (success : (fetch crate (world.over server) crawler target []).1 = .ok response) :
    ∃ (earlier : List Event) (reply : HttpResponse) (wire : WireResponse)
        (parts : List (List UInt8)),
      .requested response.finalUrl (some (.ok reply)) :: earlier <:+
        (fetch crate (world.over server) crawler target []).2 ∧
      server earlier response.finalUrl = .answered wire ∧
      response.status = wire.status ∧ wire.arrivals = parts.map Arrival.chunk ∧
      response.body = parts.flatten ∧
      response.body.length ≤ crawler.config.maxResponseBytes ∧
      response.headers = safeHeaders wire.headers ∧ Sorted response.headers ∧
      ∀ header ∈ response.headers, Worker.isSensitiveHeader header.1 = false := by
  have delivered := @fetch_returns crate (world.over server) crawler target [] trivial
  rcases fetched : fetch crate (world.over server) crawler target [] with ⟨error | page, later⟩
  · rw [fetched] at success
    cases success
  · rw [fetched] at success delivered
    cases success
    obtain ⟨reply, ⟨earlier, along, got, fits⟩, status, headers, body⟩ := delivered
    obtain ⟨wire, parts, answered, chunks, sameStatus, sameHeaders, sameBody⟩ :=
      get_eq_ok (Option.some.inj got)
    refine ⟨earlier, reply, wire, parts, along, answered, status.trans sameStatus, chunks,
      body.trans sameBody, body ▸ fits, headers.trans sameHeaders, ?_, ?_⟩
    · rw [headers, sameHeaders]
      exact safeHeaders_sorted _
    · rw [headers, sameHeaders]
      exact fun header member => safeHeaders_accepted member

def publicSite : World := { deniedRedirect with get := fun _ _ _ => none }

def wireText (text : String) : List UInt8 := text.toList.map fun c => UInt8.ofNat c.toNat

/-- Greets in two chunks, with a cookie. -/
def greeting : List Event → CrawlUrl → Reply := fun _ url =>
  if url.url.path = "/robots.txt".toList then .answered ⟨404, none, [], []⟩
  else .answered {
    status := 200
    contentLength := none
    headers := [(⟨"set-cookie".toList, by decide⟩, wireText "id=1"),
      (⟨"server".toList, by decide⟩, wireText "nginx")]
    arrivals := [.chunk (wireText "Hello, "), .chunk (wireText "world")] }

def greetingFetched : Except CrawlError CrawlResponse :=
  (fetch plainUrlCrate (publicSite.over greeting) defaultCrawler examplePage []).1

theorem greeting_whole_and_safe :
    ∃ response, greetingFetched = .ok response ∧ response.body = wireText "Hello, world" ∧
      ∃ (earlier : List Event) (reply : HttpResponse) (wire : WireResponse)
          (parts : List (List UInt8)),
        .requested response.finalUrl (some (.ok reply)) :: earlier <:+
          (fetch plainUrlCrate (publicSite.over greeting) defaultCrawler examplePage []).2 ∧
        greeting earlier response.finalUrl = .answered wire ∧ response.status = wire.status ∧
        wire.arrivals = parts.map Arrival.chunk ∧ response.body = parts.flatten ∧
        response.body.length ≤ defaultCrawler.config.maxResponseBytes ∧
        response.headers = safeHeaders wire.headers ∧ Sorted response.headers ∧
        ∀ header ∈ response.headers, Worker.isSensitiveHeader header.1 = false := by
  have whole : greetingFetched.toOption.map CrawlResponse.body =
      some (wireText "Hello, world") := by
    decide +kernel
  obtain ⟨response, delivered, body⟩ := Option.map_eq_some_iff.mp whole
  have success : greetingFetched = .ok response := by
    cases fetched : greetingFetched with
    | error error => rw [fetched] at delivered; cases delivered
    | ok page => rw [fetched] at delivered; cases delivered; rfl
  exact ⟨response, success, body, fetched_whole_and_safe plainUrlCrate publicSite greeting
    defaultCrawler examplePage success⟩

end Fetches

end TechAtlas.Acquisition
