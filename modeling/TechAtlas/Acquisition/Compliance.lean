import TechAtlas.Acquisition.Guarded

set_option autoImplicit false

/- Which requests of a fetch robots.txt allows. The policy of the first URL is
checked before the loop; where the loop goes from there is up to the transport. -/
namespace TechAtlas.Acquisition

open Library Dialogue

section Definitions

variable (crate : UrlCrate) (world : World) (crawler : Crawler)

/-- The URL is allowed by the robots.txt of its own origin, as it is served when
the fetch starts; without a policy nothing is. -/
def permits (url : CrawlUrl) : Bool :=
  match (robotsPolicy crate world crawler url []).1 with
  | .ok policy => policy.allows url
  | .error _ => false

def Event.request : Event → Option CrawlUrl
  | .requested url _ => some url
  | _ => none

def requests (trace : List Event) : List CrawlUrl := trace.filterMap Event.request

/-- The requests of a fetch after its robots.txt is retrieved. -/
def pageRequests (target : CrawlUrl) : List CrawlUrl :=
  let trace := (fetch crate world crawler target []).2
  let robots := (robotsPolicy crate world crawler target []).2
  requests (trace.take (trace.length - robots.length))

/-- After `trace`, the host of the URL resolves to public addresses and nothing
is cancelled before the request. -/
structure Visits (trace : List Event) (url : CrawlUrl) (addresses : List SocketAddr) : Prop where
  started : world.cancelled trace = false
  resolves : world.resolve trace url.host = .completed (.ok addresses)
  safe : ∀ address ∈ addresses, isPublicAddress address.ip = true
  continued : world.cancelled (.resolved url.host (.completed (.ok addresses)) :: trace) = false

/-- The transport answers the request for the URL with a redirect to `next`. -/
def Redirects (trace : List Event) (url : CrawlUrl) (later : List Event) (next : CrawlUrl) : Prop :=
  ∃ addresses response, Visits world trace url addresses ∧
    world.get (.resolved url.host (.completed (.ok addresses)) :: trace) url
      crawler.config.maxResponseBytes = some (.ok response) ∧
    response.body.length ≤ crawler.config.maxResponseBytes ∧
    isRedirect response.status = true ∧ nextTarget crate url response = .ok next ∧
    later = .requested url (some (.ok response)) ::
      .resolved url.host (.completed (.ok addresses)) :: trace

/-- The URL that the transport leads to by a number of redirects. -/
def Leads : Nat → List Event → CrawlUrl → List Event → CrawlUrl → Prop
  | 0, trace, url, later, last => later = trace ∧ last = url
  | n + 1, trace, url, later, last =>
      ∃ middle next, Redirects crate world crawler trace url middle next ∧
        Leads n middle next later last

end Definitions

variable {crate : UrlCrate} {world : World} {crawler : Crawler}

section Acquire

theorem requests_append (first second : List Event) :
    requests (first ++ second) = requests first ++ requests second := List.filterMap_append

theorem validateAddresses_of_safe {host : Text} {addresses : List SocketAddr}
    (safe : ∀ address ∈ addresses, isPublicAddress address.ip = true) :
    validateAddresses host addresses = .ok () := by
  induction addresses with
  | nil => rfl
  | cons address rest ih =>
      rw [validateAddresses, if_pos (safe address List.mem_cons_self)]
      exact ih fun other member => safe other (List.mem_cons_of_mem _ member)

/-- The outcome of a pass whose target is requested, from the answer. -/
def passResult (crawler : Crawler) (addresses : List SocketAddr) :
    Option (Except HttpTransportError HttpResponse) →
      Except CrawlError (List IpAddr × HttpResponse)
  | none => .error .cancelled
  | some (.error error) => .error (mapTransportError error)
  | some (.ok response) =>
      if crawler.config.maxResponseBytes < response.body.length then
        .error (.responseTooLarge crawler.config.maxResponseBytes response.body.length)
      else .ok (publicAddresses crawler addresses, response)

theorem passResult_eq_ok {addresses : List SocketAddr}
    {answer : Option (Except HttpTransportError HttpResponse)} {resolved : List IpAddr}
    {response : HttpResponse} (success : passResult crawler addresses answer =
      .ok (resolved, response)) :
    answer = some (.ok response) ∧ response.body.length ≤ crawler.config.maxResponseBytes := by
  rcases answer with _ | error | reply
  · cases success
  · cases success
  · rw [passResult] at success
    split at success
    · cases success
    · rename_i small
      cases success
      exact ⟨rfl, Nat.le_of_not_lt small⟩

theorem acquire_of_visits {trace : List Event} {url : CrawlUrl} {addresses : List SocketAddr}
    (visits : Visits world trace url addresses) :
    let asked := .resolved url.host (.completed (.ok addresses)) :: trace
    let answer := world.get asked url crawler.config.maxResponseBytes
    acquire world crawler url trace =
      (passResult crawler addresses answer, .requested url answer :: asked) := by
  intro asked answer
  have validated : validateTarget world crawler url trace =
      (.ok (publicAddresses crawler addresses), asked) := by
    rw [validateTarget, observe_bind, visits.started]
    simp only [Bool.false_eq_true, ↓reduceIte, exchange_bind, visits.resolves,
      validateAddresses_of_safe visits.safe, pure_apply]
    rfl
  rw [acquire, bind_of_ok validated, observe_bind, visits.continued]
  simp only [Bool.false_eq_true, ↓reduceIte, exchange_bind]
  cases found : world.get asked url crawler.config.maxResponseBytes with
  | none => simp [answer, found, passResult]
  | some reply =>
      cases reply with
      | error error => simp [answer, found, passResult]
      | ok response =>
          simp only [answer, found, passResult]
          split <;> rfl

/-- A target that is not visited is not requested either. -/
theorem acquire_of_not_visits {trace : List Event} {url : CrawlUrl}
    (unvisited : ∀ addresses, ¬Visits world trace url addresses) :
    ∃ error events, acquire world crawler url trace = (.error error, events ++ trace) ∧
      requests events = [] := by
  by_cases started : world.cancelled trace = true
  · refine ⟨.cancelled, [], ?_, rfl⟩
    rw [acquire]
    apply bind_of_error
    rw [validateTarget, observe_bind, if_pos started, fail_apply, List.nil_append]
  · cases answer : world.resolve trace url.host with
    | cancelled =>
        refine ⟨.cancelled, [.resolved url.host .cancelled], ?_, rfl⟩
        rw [acquire]
        apply bind_of_error
        rw [validateTarget, observe_bind, if_neg started, exchange_bind, answer]
        rfl
    | timedOut =>
        refine ⟨.dns .timeout, [.resolved url.host .timedOut], ?_, rfl⟩
        rw [acquire]
        apply bind_of_error
        rw [validateTarget, observe_bind, if_neg started, exchange_bind, answer]
        rfl
    | completed outcome =>
        cases outcome with
        | error error =>
            refine ⟨.dns (.resolution error), [.resolved url.host (.completed (.error error))], ?_,
              rfl⟩
            rw [acquire]
            apply bind_of_error
            rw [validateTarget, observe_bind, if_neg started, exchange_bind, answer]
            rfl
        | ok addresses =>
            let resolved : Event := .resolved url.host (.completed (.ok addresses))
            cases valid : validateAddresses url.host addresses with
            | error error =>
                refine ⟨.dns error, [resolved], ?_, rfl⟩
                rw [acquire]
                apply bind_of_error
                rw [validateTarget, observe_bind, if_neg started, exchange_bind, answer]
                simp only [valid]
                rfl
            | ok _ =>
                have validated : validateTarget world crawler url trace =
                    (.ok (publicAddresses crawler addresses), resolved :: trace) := by
                  rw [validateTarget, observe_bind, if_neg started, exchange_bind, answer]
                  simp only [valid]
                  rfl
                have stopped : world.cancelled (resolved :: trace) = true := by
                  by_contra continued
                  exact unvisited addresses ⟨by simpa using started, answer,
                    validateAddresses_eq_ok valid, by simpa using continued⟩
                refine ⟨.cancelled, [resolved], ?_, rfl⟩
                rw [acquire, bind_of_ok validated, observe_bind, if_pos stopped]
                rfl

end Acquire

section Loop

theorem finish_quiet (captureOptionalFacts : Bool) (target : CrawlUrl)
    (redirectChain : List CrawlRedirect) (resolved : List IpAddr) (response : HttpResponse)
    (trace : List Event) :
    ∃ events, (finish world crawler captureOptionalFacts target redirectChain resolved response
      trace).2 = events ++ trace ∧ requests events = [] := by
  have quiet : Triple (fun later => ∃ events, later = events ++ trace ∧ requests events = [])
      (finish world crawler captureOptionalFacts target redirectChain resolved response)
      (fun _ later => ∃ events, later = events ++ trace ∧ requests events = [])
      fun _ later => ∃ events, later = events ++ trace ∧ requests events = [] := by
    unfold finish
    cases captureOptionalFacts with
    | false => exact fun _ before => before
    | true =>
        refine Triple.bind ((captureTls_triple target resolved ?_).conseq (fun _ before => before)
          (fun _ _ after => after) fun _ _ impossible => impossible.elim) fun _ =>
            Triple.pure fun _ after => after
        rintro _ ⟨events, rfl, silent⟩ ip _ port verify answer
        exact ⟨_ :: events, rfl, silent⟩
  have ended := quiet trace ⟨[], rfl, rfl⟩
  rcases run : finish world crawler captureOptionalFacts target redirectChain resolved response
    trace with ⟨error | finished, later⟩
  · rw [run] at ended
    exact ended
  · rw [run] at ended
    exact ended

variable {trace later : List Event} {url next : CrawlUrl} {captureOptionalFacts : Bool}
  {redirectChain : List CrawlRedirect}

/-- A pass that follows no redirect requests its own target only. -/
theorem fetchLoop_last {addresses : List SocketAddr} (visits : Visits world trace url addresses)
    {remaining : Nat}
    (last : remaining = 0 ∨ ∀ later next, ¬Redirects crate world crawler trace url later next) :
    ∃ events, (fetchLoop crate world crawler captureOptionalFacts remaining url redirectChain
      trace).2 = events ++ trace ∧ requests events = [url] := by
  let resolved : Event := .resolved url.host (.completed (.ok addresses))
  let answer := world.get (resolved :: trace) url crawler.config.maxResponseBytes
  have acquired : acquire world crawler url trace = (passResult crawler addresses answer,
      .requested url answer :: resolved :: trace) := acquire_of_visits visits
  have alone : requests [.requested url answer, resolved] = [url] := rfl
  cases result : passResult crawler addresses answer with
  | error error =>
      rw [result] at acquired
      refine ⟨[.requested url answer, resolved], ?_, alone⟩
      rw [fetchLoop, bind_of_error acquired]
      rfl
  | ok pass =>
      obtain ⟨addressesOfPass, response⟩ := pass
      rw [result] at acquired
      rw [fetchLoop, bind_of_ok acquired]
      dsimp only
      by_cases redirect : isRedirect response.status = true
      · rw [if_pos redirect]
        refine ⟨[.requested url answer, resolved], ?_, alone⟩
        cases remaining with
        | zero => rfl
        | succ remaining =>
            have stays := last.resolve_left (Nat.succ_ne_zero remaining)
            cases leads : nextTarget crate url response with
            | error error => rfl
            | ok next =>
                have redirects : Redirects crate world crawler trace url
                    (.requested url answer :: resolved :: trace) next := by
                  obtain ⟨found, small⟩ := passResult_eq_ok result
                  exact ⟨addresses, response, visits, found, small, redirect, leads, by rw [found]⟩
                exact absurd redirects (stays _ next)
      · rw [if_neg redirect]
        obtain ⟨events, grown, silent⟩ := finish_quiet captureOptionalFacts url
          redirectChain addressesOfPass response (.requested url answer :: resolved :: trace)
        refine ⟨events ++ [.requested url answer, resolved], ?_, ?_⟩
        · rw [grown, List.append_assoc]
          rfl
        · rw [requests_append, silent, List.nil_append, alone]

theorem fetchLoop_redirects (redirects : Redirects crate world crawler trace url later next)
    (remaining : Nat) :
    ∃ chain, fetchLoop crate world crawler captureOptionalFacts (remaining + 1) url redirectChain
      trace = fetchLoop crate world crawler captureOptionalFacts remaining next chain later := by
  obtain ⟨addresses, response, visits, found, small, redirect, leads, rfl⟩ := redirects
  have passed : passResult crawler addresses (some (.ok response)) =
      .ok (publicAddresses crawler addresses, response) := by
    rw [passResult, if_neg (Nat.not_lt.mpr small)]
  have acquired : acquire world crawler url trace = _ := acquire_of_visits visits
  rw [found, passed] at acquired
  refine ⟨redirectChain ++ [⟨url, next, response.status⟩], ?_⟩
  rw [fetchLoop, bind_of_ok acquired]
  dsimp only
  rw [if_pos redirect]
  simp only [leads]

theorem Redirects.visits (redirects : Redirects crate world crawler trace url later next) :
    ∃ addresses, Visits world trace url addresses := by
  obtain ⟨addresses, _, visits, _⟩ := redirects
  exact ⟨addresses, visits⟩

theorem Redirects.requests (redirects : Redirects crate world crawler trace url later next) :
    ∃ events, later = events ++ trace ∧ Acquisition.requests events = [url] := by
  obtain ⟨addresses, response, _, _, _, _, _, rfl⟩ := redirects
  exact ⟨[_, _], rfl, rfl⟩

/-- The transport has one answer. -/
theorem Redirects.unique {otherLater : List Event} {other : CrawlUrl}
    (redirects : Redirects crate world crawler trace url later next)
    (others : Redirects crate world crawler trace url otherLater other) :
    otherLater = later ∧ other = next := by
  obtain ⟨addresses, response, visits, found, _, _, leads, rfl⟩ := redirects
  obtain ⟨_, reply, otherVisits, otherFound, _, _, otherLeads, rfl⟩ := others
  have sameAddresses := visits.resolves.symm.trans otherVisits.resolves
  cases sameAddresses
  have sameResponse := found.symm.trans otherFound
  cases sameResponse
  have sameNext := leads.symm.trans otherLeads
  cases sameNext
  exact ⟨rfl, rfl⟩

/-- The requests that a run of the loop adds to the trace. -/
def Adds (crate : UrlCrate) (world : World) (crawler : Crawler) (remaining : Nat)
    (trace : List Event) (url : CrawlUrl) (page : List Event) : Prop :=
  ∀ last, last ∈ requests page ↔ ∃ n, n ≤ remaining ∧ ∃ later addresses,
    Leads crate world crawler n trace url later last ∧ Visits world later last addresses

theorem fetchLoop_adds_own {remaining : Nat}
    (ends : remaining = 0 ∨ ∀ later next, ¬Redirects crate world crawler trace url later next) :
    ∃ page, (fetchLoop crate world crawler captureOptionalFacts remaining url redirectChain
      trace).2 = page ++ trace ∧ Adds crate world crawler remaining trace url page := by
  have alone : ∀ {n later last}, n ≤ remaining → Leads crate world crawler n trace url later last →
      later = trace ∧ last = url := by
    intro n later last few leads
    cases n with
    | zero => exact leads
    | succ n =>
        obtain ⟨middle, next, redirects, _⟩ := leads
        rcases ends with rfl | stays
        · exact absurd few (Nat.not_succ_le_zero n)
        · exact absurd redirects (stays middle next)
  by_cases visited : ∃ addresses, Visits world trace url addresses
  · obtain ⟨addresses, visits⟩ := visited
    obtain ⟨events, grown, own⟩ := fetchLoop_last visits ends
    refine ⟨events, grown, fun last => ?_⟩
    rw [own, List.mem_singleton]
    constructor
    · rintro rfl
      exact ⟨0, Nat.zero_le _, trace, addresses, ⟨rfl, rfl⟩, visits⟩
    · rintro ⟨n, few, later, _, leads, _⟩
      exact (alone few leads).2
  · obtain ⟨error, events, acquired, silent⟩ := acquire_of_not_visits
      fun addresses visits => visited ⟨addresses, visits⟩
    refine ⟨events, ?_, fun last => ?_⟩
    · rw [fetchLoop, bind_of_error acquired]
    · rw [silent]
      constructor
      · intro member
        cases member
      · rintro ⟨n, few, later, addresses, leads, visits⟩
        obtain ⟨rfl, rfl⟩ := alone few leads
        exact absurd ⟨addresses, visits⟩ visited

/-- The loop requests what the transport leads to, as far as it follows. -/
theorem fetchLoop_adds (remaining : Nat) :
    ∃ page, (fetchLoop crate world crawler captureOptionalFacts remaining url redirectChain
      trace).2 = page ++ trace ∧ Adds crate world crawler remaining trace url page := by
  induction remaining generalizing trace url redirectChain with
  | zero => exact fetchLoop_adds_own (Or.inl rfl)
  | succ remaining ih =>
      by_cases redirected : ∃ later next, Redirects crate world crawler trace url later next
      · obtain ⟨later, next, redirects⟩ := redirected
        obtain ⟨chain, continued⟩ := fetchLoop_redirects redirects remaining
        obtain ⟨events, sameLater, own⟩ := redirects.requests
        obtain ⟨page, grown, adds⟩ := ih
        refine ⟨page ++ events, ?_, fun last => ?_⟩
        · rw [continued, grown, sameLater, List.append_assoc]
        · rw [requests_append, List.mem_append, adds last, own, List.mem_singleton]
          constructor
          · rintro (⟨n, few, rest⟩ | rfl)
            · obtain ⟨ending, addresses, leads, visits⟩ := rest
              exact ⟨n + 1, Nat.succ_le_succ few, ending, addresses, ⟨later, next, redirects, leads⟩,
                visits⟩
            · obtain ⟨addresses, visits⟩ := redirects.visits
              exact ⟨0, Nat.zero_le _, trace, addresses, ⟨rfl, rfl⟩, visits⟩
          · rintro ⟨n, few, ending, addresses, leads, visits⟩
            cases n with
            | zero => exact Or.inr leads.2
            | succ n =>
                obtain ⟨middle, other, others, rest⟩ := leads
                obtain ⟨rfl, rfl⟩ := redirects.unique others
                exact Or.inl ⟨n, Nat.le_of_succ_le_succ few, ending, addresses, rest, visits⟩
      · refine fetchLoop_adds_own (Or.inr fun later next redirects => ?_)
        exact redirected ⟨later, next, redirects⟩

end Loop

section Fetches

variable {target : CrawlUrl}

theorem pageRequests_of_append {page : List Event}
    (grown : (fetch crate world crawler target []).2 =
      page ++ (robotsPolicy crate world crawler target []).2) :
    pageRequests crate world crawler target = requests page := by
  rw [pageRequests, grown, List.length_append, Nat.add_sub_cancel, List.take_left]

/-- Without permission the fetch ends with the retrieval of robots.txt. -/
theorem fetch_of_not_permits (denied : permits crate world crawler target = false) :
    (fetch crate world crawler target []).2 = (robotsPolicy crate world crawler target []).2 := by
  rw [fetch, observe_bind]
  by_cases cancelled : world.cancelled [] = true
  · rw [if_pos cancelled, robotsPolicy, observe_bind, if_pos cancelled]
    rfl
  · rw [if_neg cancelled]
    rcases retrieved : robotsPolicy crate world crawler target [] with ⟨error | policy, trace⟩
    · rw [bind_of_error retrieved]
    · rw [bind_of_ok retrieved]
      rw [permits, retrieved] at denied
      dsimp only at denied
      rw [denied]
      rfl

theorem fetch_of_permits (permitted : permits crate world crawler target = true) :
    fetch crate world crawler target [] = fetchUnchecked crate world crawler target true
      (robotsPolicy crate world crawler target []).2 := by
  rw [fetch, observe_bind]
  by_cases cancelled : world.cancelled [] = true
  · rw [permits, robotsPolicy, observe_bind, if_pos cancelled] at permitted
    cases permitted
  · rw [if_neg cancelled]
    rcases retrieved : robotsPolicy crate world crawler target [] with ⟨error | policy, trace⟩
    · rw [permits, retrieved] at permitted
      cases permitted
    · rw [bind_of_ok retrieved]
      rw [permits, retrieved] at permitted
      dsimp only at permitted
      rw [permitted]
      rfl

/-- A fetch requests only pages that their own robots.txt allows exactly when its
target is not permitted at all, or the transport leads it, by as many redirects
as it follows, to permitted URLs only. -/
theorem robots_honored_iff (crate : UrlCrate) (world : World) (crawler : Crawler)
    (target : CrawlUrl) :
    (∀ url ∈ pageRequests crate world crawler target, permits crate world crawler url = true) ↔
      (permits crate world crawler target = true → ∀ n url later addresses,
        0 < n → n ≤ crawler.config.maxRedirects →
        Leads crate world crawler n (robotsPolicy crate world crawler target []).2 target later url →
        Visits world later url addresses → permits crate world crawler url = true) := by
  by_cases permitted : permits crate world crawler target = true
  · have followed : ∃ page, (fetch crate world crawler target []).2 =
        page ++ (robotsPolicy crate world crawler target []).2 ∧ Adds crate world crawler
          crawler.config.maxRedirects (robotsPolicy crate world crawler target []).2 target page := by
      rw [fetch_of_permits permitted]
      exact fetchLoop_adds crawler.config.maxRedirects
    obtain ⟨page, grown, adds⟩ := followed
    rw [pageRequests_of_append grown]
    constructor
    · intro all _ n url later addresses _ few leads visits
      exact all url ((adds url).mpr ⟨n, few, later, addresses, leads, visits⟩)
    · intro led url member
      obtain ⟨n, few, later, addresses, leads, visits⟩ := (adds url).mp member
      cases n with
      | zero =>
          rw [leads.2]
          exact permitted
      | succ n => exact led permitted _ url later addresses (Nat.succ_pos n) few leads visits
  · rw [Bool.not_eq_true] at permitted
    have nothing := fetch_of_not_permits permitted
    rw [← List.nil_append (robotsPolicy crate world crawler target []).2] at nothing
    rw [pageRequests_of_append nothing, permitted]
    simp [requests]

/-- The host of a site whose front page redirects to a directory that its
robots.txt denies. -/
def deniedRedirect : World where
  cancelled := fun _ => false
  resolve := fun _ _ => .completed (.ok [⟨.v4 ⟨#v[93, 184, 216, 34]⟩, 0⟩])
  get := fun _ url _ =>
    if url.url.path = "/robots.txt".toList then
      some (.ok ⟨200, [], ("User-agent: *\nDisallow: /private".toList.map fun c =>
        UInt8.ofNat c.toNat)⟩)
    else if url.url.path = "/".toList then
      some (.ok ⟨302, [("location".toList, "/private".toList)], []⟩)
    else some (.ok ⟨200, [], []⟩)
  handshake := fun _ _ _ _ => .completed (.error .connection)

def defaultCrawler : Crawler := ⟨.default, rfl, true⟩

def examplePage : CrawlUrl where
  url := plainUrl "https".toList "example.com".toList "/".toList
  host := "example.com".toList
  allowed := ⟨rfl, rfl, rfl, rfl, rfl, by decide⟩

/-- The fetch of the front page goes on to request the denied directory. -/
theorem deniedRedirect_followed :
    ¬∀ url ∈ pageRequests plainUrlCrate deniedRedirect defaultCrawler examplePage,
      permits plainUrlCrate deniedRedirect defaultCrawler url = true := by
  decide +kernel

end Fetches

end TechAtlas.Acquisition
