import TechAtlas.Acquisition.Crawler

set_option autoImplicit false

/- What a fetch connects to, whatever the environment answers: only public
addresses of the hosts it was about to visit. -/
namespace TechAtlas.Acquisition

open Library Dialogue

variable {crate : UrlCrate} {world : World} {crawler : Crawler}

section Definitions

/-- Every request comes right after a resolution of its own host in which every
address is public. -/
def Guarded (trace : List Event) : Prop :=
  ∀ later earlier url answer, trace = later ++ .requested url answer :: earlier →
    ∃ addresses rest, earlier = .resolved url.host (.completed (.ok addresses)) :: rest ∧
      ∀ address ∈ addresses, isPublicAddress address.ip = true

def Event.isProbe : Event → Bool
  | .probed .. => true
  | _ => false

/-- Guarded requests and no probe. -/
structure Calm (trace : List Event) : Prop where
  guarded : Guarded trace
  unprobed : ∀ event ∈ trace, event.isProbe = false

/-- The last exchanges: a resolution of the host of `url` to public addresses and
the request for `url`. -/
structure Visited (url : CrawlUrl) (addresses : List SocketAddr) (trace : List Event) : Prop where
  visit : ∃ answer rest,
    trace = .requested url answer :: .resolved url.host (.completed (.ok addresses)) :: rest
  safe : ∀ address ∈ addresses, isPublicAddress address.ip = true

/-- A visit and after it only probes of the addresses its resolution returned. -/
def Probing (url : CrawlUrl) (addresses : List SocketAddr) (trace : List Event) : Prop :=
  ∃ probes visited, trace = probes ++ visited ∧ Calm visited ∧ Visited url addresses visited ∧
    ∀ event ∈ probes, ∃ address verify answer,
      event = .probed url.host address verify answer ∧ address.ip ∈ addresses.map SocketAddr.ip

/-- The trace that leads to a response: probes, if optional facts are captured at
all, are of its final URL. -/
def Ended (captureOptionalFacts : Bool) (response : CrawlResponse) (trace : List Event) : Prop :=
  Calm trace ∨ (captureOptionalFacts = true ∧ ∃ addresses,
    Probing response.finalUrl addresses trace)

end Definitions

section Traces

variable {trace : List Event}

theorem guarded_nil : Guarded [] := by
  intro later earlier url answer split
  simp at split

theorem Guarded.cons (guarded : Guarded trace) {event : Event}
    (quiet : ∀ url answer, event ≠ .requested url answer) : Guarded (event :: trace) := by
  intro later earlier url answer split
  cases later with
  | nil =>
      rw [List.nil_append, List.cons.injEq] at split
      exact absurd split.1 (quiet url answer)
  | cons first rest =>
      rw [List.cons_append, List.cons.injEq] at split
      exact guarded rest earlier url answer split.2

theorem Guarded.request {url : CrawlUrl} {addresses : List SocketAddr}
    (guarded : Guarded (.resolved url.host (.completed (.ok addresses)) :: trace))
    (safe : ∀ address ∈ addresses, isPublicAddress address.ip = true)
    (answer : Option (Except HttpTransportError HttpResponse)) :
    Guarded (.requested url answer :: .resolved url.host (.completed (.ok addresses)) :: trace) := by
  intro later earlier other reply split
  cases later with
  | nil =>
      rw [List.nil_append, List.cons.injEq, Event.requested.injEq] at split
      obtain ⟨⟨rfl, _⟩, rfl⟩ := split
      exact ⟨addresses, trace, rfl, safe⟩
  | cons first rest =>
      rw [List.cons_append, List.cons.injEq] at split
      exact guarded rest earlier other reply split.2

theorem calm_nil : Calm [] := ⟨guarded_nil, fun _ member => nomatch member⟩

theorem Calm.resolve (calm : Calm trace) (host : Text)
    (answer : Outcome (Except DnsResolverError (List SocketAddr))) :
    Calm (.resolved host answer :: trace) := by
  refine ⟨calm.guarded.cons (by simp), ?_⟩
  intro event member
  rcases List.mem_cons.mp member with rfl | old
  · rfl
  · exact calm.unprobed event old

theorem Calm.request {url : CrawlUrl} {addresses : List SocketAddr}
    (calm : Calm (.resolved url.host (.completed (.ok addresses)) :: trace))
    (safe : ∀ address ∈ addresses, isPublicAddress address.ip = true)
    (answer : Option (Except HttpTransportError HttpResponse)) :
    Calm (.requested url answer :: .resolved url.host (.completed (.ok addresses)) :: trace) := by
  refine ⟨calm.guarded.request safe answer, ?_⟩
  intro event member
  rcases List.mem_cons.mp member with rfl | old
  · rfl
  · exact calm.unprobed event old

theorem Probing.probe {url : CrawlUrl} {addresses : List SocketAddr}
    (probing : Probing url addresses trace) {address : SocketAddr}
    (known : address.ip ∈ addresses.map SocketAddr.ip) (verify : Bool)
    (answer : Outcome (Except TlsProbeError TlsCapture)) :
    Probing url addresses (.probed url.host address verify answer :: trace) := by
  obtain ⟨probes, visited, rfl, calm, visit, probed⟩ := probing
  refine ⟨.probed url.host address verify answer :: probes, visited, rfl, calm, visit, ?_⟩
  intro event member
  rcases List.mem_cons.mp member with rfl | old
  · exact ⟨address, verify, answer, rfl, known⟩
  · exact probed event old

theorem Probing.guarded {url : CrawlUrl} {addresses : List SocketAddr}
    (probing : Probing url addresses trace) : Guarded trace := by
  obtain ⟨probes, visited, rfl, calm, _, probed⟩ := probing
  induction probes with
  | nil => exact calm.guarded
  | cons event rest ih =>
      obtain ⟨address, verify, answer, rfl, _⟩ := probed event List.mem_cons_self
      have guarded := ih fun event member => probed event (List.mem_cons_of_mem _ member)
      exact guarded.cons (by simp)

theorem Ended.guarded {captureOptionalFacts : Bool} {response : CrawlResponse}
    (ended : Ended captureOptionalFacts response trace) : Guarded trace := by
  rcases ended with calm | ⟨_, addresses, probing⟩
  · exact calm.guarded
  · exact probing.guarded

theorem Ended.calm {response : CrawlResponse} (ended : Ended false response trace) : Calm trace := by
  rcases ended with calm | ⟨captured, _⟩
  · exact calm
  · cases captured

end Traces

section Programs

theorem publicAddresses_subset (addresses : List SocketAddr) :
    ∀ address ∈ publicAddresses crawler addresses, address ∈ addresses.map SocketAddr.ip := by
  intro address member
  have sorted := (List.destutter_sublist _ _).subset (List.mem_of_mem_take member)
  rwa [List.mem_insertionSort] at sorted

/-- What a validated target leaves: its host was resolved to public addresses. -/
structure Resolved (target : CrawlUrl) (resolved : List IpAddr) (trace : List Event) : Prop where
  calm : Calm trace
  resolution : ∃ addresses rest,
    trace = .resolved target.host (.completed (.ok addresses)) :: rest ∧
    (∀ address ∈ addresses, isPublicAddress address.ip = true) ∧
    ∀ address ∈ resolved, address ∈ addresses.map SocketAddr.ip

theorem validateTarget_triple (target : CrawlUrl) :
    Triple Calm (validateTarget world crawler target) (Resolved target) fun _ => Calm := by
  apply Triple.observe
  intro cancelled
  split
  · exact Triple.fail fun trace before => before.1
  · apply Triple.exchange
    intro answer
    have calmAfter : ∀ trace, (∃ earlier, trace = .resolved target.host answer :: earlier ∧
        (Calm earlier ∧ world.cancelled earlier = cancelled) ∧
        world.resolve earlier target.host = answer) → Calm trace := by
      rintro _ ⟨earlier, rfl, ⟨calm, _⟩, _⟩
      exact calm.resolve target.host answer
    split
    · exact Triple.fail calmAfter
    · exact Triple.fail calmAfter
    · exact Triple.fail calmAfter
    · rename_i addresses
      split
      · exact Triple.fail calmAfter
      · rename_i valid
        apply Triple.pure
        intro trace after
        have calm := calmAfter trace after
        obtain ⟨earlier, same, _⟩ := after
        exact ⟨calm, addresses, earlier, same, validateAddresses_eq_ok valid,
          publicAddresses_subset addresses⟩

/-- What an acquired response leaves: the visit is the last thing that happened. -/
structure Acquired (target : CrawlUrl) (resolved : List IpAddr) (trace : List Event) : Prop where
  calm : Calm trace
  visited : ∃ addresses, Visited target addresses trace ∧
    ∀ address ∈ resolved, address ∈ addresses.map SocketAddr.ip

theorem acquire_triple (target : CrawlUrl) :
    Triple Calm (acquire world crawler target) (fun acquired => Acquired target acquired.1)
      fun _ => Calm := by
  unfold acquire
  apply Triple.bind (validateTarget_triple target)
  intro resolved
  apply Triple.observe
  intro cancelled
  split
  · exact Triple.fail fun trace before => before.1.calm
  · apply Triple.exchange
    intro answer
    have acquired : ∀ trace, (∃ earlier, trace = .requested target answer :: earlier ∧
        (Resolved target resolved earlier ∧ world.cancelled earlier = cancelled) ∧
        world.get earlier target crawler.config.maxResponseBytes = answer) →
        Acquired target resolved trace := by
      rintro _ ⟨earlier, rfl, ⟨⟨calm, addresses, rest, rfl, safe, known⟩, _⟩, _⟩
      exact ⟨calm.request safe answer, addresses, ⟨⟨answer, rest, rfl⟩, safe⟩, known⟩
    split
    · exact Triple.fail fun trace after => (acquired trace after).calm
    · exact Triple.fail fun trace after => (acquired trace after).calm
    · split
      · exact Triple.fail fun trace after => (acquired trace after).calm
      · exact Triple.pure acquired

/-- What a probe of each candidate preserves, the loop over the candidates
preserves; it never fails. -/
theorem probeTls_triple {P : List Event → Prop} (host : Text) (port : Nat)
    (candidates : List IpAddr) (fallback : Option TlsCapture)
    (kept : ∀ trace, P trace → ∀ ip ∈ candidates, ∀ verify answer,
      P (.probed host ⟨ip, port⟩ verify answer :: trace)) :
    Triple P (probeTls world host port candidates fallback) (fun _ => P) fun _ _ => False := by
  induction candidates generalizing fallback with
  | nil => exact Triple.pure fun _ holds => holds
  | cons ip rest ih =>
      have keptByRest : ∀ trace, P trace → ∀ other ∈ rest, ∀ verify answer,
          P (.probed host ⟨other, port⟩ verify answer :: trace) :=
        fun trace holds other member => kept trace holds other (List.mem_cons_of_mem _ member)
      have probe : ∀ {verify answer trace earlier},
          trace = .probed host ⟨ip, port⟩ verify answer :: earlier → P earlier → P trace := by
        rintro verify answer _ earlier rfl holds
        exact kept earlier holds ip List.mem_cons_self verify answer
      apply Triple.exchange
      intro answer
      split
      · exact Triple.pure fun _ ⟨_, same, holds, _⟩ => probe same holds
      · exact Triple.pure fun _ ⟨_, same, holds, _⟩ => probe same holds
      · exact Triple.pure fun _ ⟨_, same, holds, _⟩ => probe same holds
      · apply Triple.exchange
        intro second
        split
        · exact Triple.pure fun _ ⟨_, same, ⟨_, sameMiddle, holds, _⟩, _⟩ =>
            probe same (probe sameMiddle holds)
        · exact Triple.pure fun _ ⟨_, same, ⟨_, sameMiddle, holds, _⟩, _⟩ =>
            probe same (probe sameMiddle holds)
        · exact (ih _ keptByRest).conseq (fun _ ⟨_, same, ⟨_, sameMiddle, holds, _⟩, _⟩ =>
            probe same (probe sameMiddle holds)) (fun _ _ after => after) fun _ _ after => after
        · exact (ih _ keptByRest).conseq (fun _ ⟨_, same, ⟨_, sameMiddle, holds, _⟩, _⟩ =>
            probe same (probe sameMiddle holds)) (fun _ _ after => after) fun _ _ after => after

theorem captureTls_triple {P : List Event → Prop} (url : CrawlUrl) (resolved : List IpAddr)
    (kept : ∀ trace, P trace → ∀ ip ∈ resolved, ∀ port verify answer,
      P (.probed url.host ⟨ip, port⟩ verify answer :: trace)) :
    Triple P (captureTls world crawler url resolved) (fun _ => P) fun _ _ => False := by
  unfold captureTls
  split
  · exact Triple.pure fun _ holds => holds
  · split
    · exact Triple.pure fun _ holds => holds
    · dsimp only
      split
      · exact Triple.pure fun _ holds => holds
      · apply Triple.observe
        intro cancelled
        split
        · exact Triple.pure fun _ before => before.1
        · refine (probeTls_triple url.host _ _ none ?_).conseq
            (fun _ before => before.1) (fun _ _ after => after) fun _ _ after => after
          intro trace holds ip member
          exact kept trace holds ip (List.mem_of_mem_take member) _

theorem finish_triple (captureOptionalFacts : Bool) (target : CrawlUrl)
    (redirectChain : List CrawlRedirect) (resolved : List IpAddr) (response : HttpResponse) :
    Triple (Acquired target resolved)
      (finish world crawler captureOptionalFacts target redirectChain resolved response)
      (fun response trace => Ended captureOptionalFacts response trace) fun _ _ => False := by
  unfold finish
  cases captureOptionalFacts with
  | false =>
      exact fun trace acquired => Or.inl acquired.calm
  | true =>
      intro trace acquired
      obtain ⟨calm, addresses, visited, known⟩ := acquired
      have probing : Probing target addresses trace :=
        ⟨[], trace, rfl, calm, visited, fun _ member => nomatch member⟩
      have kept : ∀ trace, Probing target addresses trace → ∀ ip ∈ resolved,
          ∀ port verify answer,
          Probing target addresses (.probed target.host ⟨ip, port⟩ verify answer :: trace) :=
        fun trace probing ip member port => probing.probe (known ip member)
      refine Triple.bind (captureTls_triple target resolved kept) (fun tls => ?_) trace probing
      exact Triple.pure fun _ after => Or.inr ⟨rfl, addresses, after⟩

/-- The loop, by induction on the redirects it still follows: before the last
response there is no probe, and each pass visits its own target. -/
theorem fetchLoop_triple (captureOptionalFacts : Bool) (remaining : Nat) (target : CrawlUrl)
    (redirectChain : List CrawlRedirect) :
    Triple Calm (fetchLoop crate world crawler captureOptionalFacts remaining target redirectChain)
      (fun response trace => Ended captureOptionalFacts response trace) fun _ => Calm := by
  induction remaining generalizing target redirectChain with
  | zero =>
      unfold fetchLoop
      apply Triple.bind (acquire_triple target)
      rintro ⟨resolved, response⟩
      dsimp only
      split
      · exact Triple.fail fun _ acquired => acquired.calm
      · exact (finish_triple captureOptionalFacts target redirectChain resolved response).conseq
          (fun _ acquired => acquired) (fun _ _ after => after) fun _ _ impossible => impossible.elim
  | succ remaining ih =>
      unfold fetchLoop
      apply Triple.bind (acquire_triple target)
      rintro ⟨resolved, response⟩
      dsimp only
      split
      · split
        · exact Triple.fail fun _ acquired => acquired.calm
        · exact (ih _ _).conseq (fun _ acquired => acquired.calm) (fun _ _ after => after)
            fun _ _ after => after
      · exact (finish_triple captureOptionalFacts target redirectChain resolved response).conseq
          (fun _ acquired => acquired) (fun _ _ after => after) fun _ _ impossible => impossible.elim

/-- The retrieval of robots.txt probes nothing. -/
theorem robotsPolicy_triple (target : CrawlUrl) :
    Triple Calm (robotsPolicy crate world crawler target) (fun _ => Calm) fun _ => Calm := by
  apply Triple.observe
  intro cancelled
  split
  · exact Triple.fail fun _ before => before.1
  · split
    · exact Triple.fail fun _ before => before.1
    · rename_i robotsUrl _
      have unprobed : Triple (fun trace => Calm trace ∧ world.cancelled trace = cancelled)
          (mapError mapRobotsFetchError (fetchUnchecked crate world crawler robotsUrl false))
          (fun _ => Calm) fun _ => Calm := by
        apply Triple.mapError
        exact (fetchLoop_triple false _ robotsUrl []).conseq (fun _ before => before.1)
          (fun _ _ ended => ended.calm) fun _ _ calm => calm
      apply Triple.bind unprobed
      intro response
      split
      · exact Triple.fail fun _ calm => calm
      · exact Triple.pure fun _ calm => calm

theorem fetch_triple (crate : UrlCrate) (world : World) (crawler : Crawler) (target : CrawlUrl) :
    Triple Calm (fetch crate world crawler target)
      (fun response trace => Ended true response trace) fun _ => Calm := by
  apply Triple.observe
  intro cancelled
  split
  · exact Triple.fail fun _ before => before.1
  · have robots : Triple (fun trace => Calm trace ∧ world.cancelled trace = cancelled)
        (robotsPolicy crate world crawler target) (fun _ => Calm) fun _ => Calm :=
      (robotsPolicy_triple target).conseq (fun _ before => before.1) (fun _ _ calm => calm)
        fun _ _ calm => calm
    apply Triple.bind robots
    intro policy
    split
    · exact fetchLoop_triple true _ target []
    · exact Triple.fail fun _ calm => calm

end Programs

section Fetches

theorem Probing.probed {url : CrawlUrl} {addresses : List SocketAddr} {trace : List Event}
    (probing : Probing url addresses trace) {host : Text} {address : SocketAddr} {verify : Bool}
    {answer : Outcome (Except TlsProbeError TlsCapture)}
    (member : .probed host address verify answer ∈ trace) :
    host = url.host ∧ address.ip ∈ addresses.map SocketAddr.ip := by
  obtain ⟨probes, visited, rfl, calm, _, probed⟩ := probing
  rcases List.mem_append.mp member with inProbes | inVisited
  · obtain ⟨known, _, _, same, inAddresses⟩ := probed _ inProbes
    cases same
    exact ⟨rfl, inAddresses⟩
  · have silent := calm.unprobed _ inVisited
    cases silent

/-- Whatever the environment answers, every request of a fetch, for robots.txt
and for the page, is for an allowed URL and comes right after a resolution of its
host to public addresses only; TLS probes come last, of addresses which the
resolution before the final request returned. -/
theorem fetch_reaches_only_validated (crate : UrlCrate) (world : World) (crawler : Crawler)
    (target : CrawlUrl) :
    let (result, trace) := fetch crate world crawler target []
    (∀ later earlier url answer, trace = later ++ .requested url answer :: earlier →
      CrawlUrl.Allowed url.url url.host ∧
      ∃ addresses rest, earlier = .resolved url.host (.completed (.ok addresses)) :: rest ∧
        ∀ address ∈ addresses, isPublicAddress address.ip = true) ∧
    (∀ host address verify answer, .probed host address verify answer ∈ trace →
      ∃ response probes reply addresses rest, result = .ok response ∧
        host = response.finalUrl.host ∧
        trace = probes ++ .requested response.finalUrl reply ::
          .resolved response.finalUrl.host (.completed (.ok addresses)) :: rest ∧
        (∀ event ∈ probes, event.isProbe = true) ∧
        (∀ resolved ∈ addresses, isPublicAddress resolved.ip = true) ∧
        address.ip ∈ addresses.map SocketAddr.ip) := by
  have ended := fetch_triple crate world crawler target [] calm_nil
  rcases fetched : fetch crate world crawler target [] with ⟨error | response, trace⟩
  · rw [fetched] at ended
    refine ⟨fun later earlier url answer split => ⟨url.allowed, ?_⟩, ?_⟩
    · exact ended.guarded later earlier url answer split
    · intro host address verify answer member
      have silent := ended.unprobed _ member
      cases silent
  · rw [fetched] at ended
    refine ⟨fun later earlier url answer split => ⟨url.allowed, ?_⟩, ?_⟩
    · exact ended.guarded later earlier url answer split
    · intro host address verify answer member
      rcases ended with calm | ⟨_, addresses, probing⟩
      · have silent := calm.unprobed _ member
        cases silent
      · obtain ⟨sameHost, known⟩ := probing.probed member
        obtain ⟨probes, visited, rfl, _, ⟨⟨reply, rest, rfl⟩, safe⟩, probed⟩ := probing
        refine ⟨response, probes, reply, addresses, rest, rfl, sameHost, rfl, ?_, safe, known⟩
        intro event inProbes
        obtain ⟨_, _, _, rfl, _⟩ := probed event inProbes
        rfl

end Fetches

end TechAtlas.Acquisition
