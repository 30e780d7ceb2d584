import TechAtlas.Acquisition.Guarded
import TechAtlas.Library.Table

set_option autoImplicit false

/- The redirects of a fetch: how many requests it makes, and that its record tells
every hop it took. -/
namespace TechAtlas.Acquisition

open Library Dialogue

section Addresses

def IpAddr.sortKey : IpAddr → Nat ×ₗ List Nat
  | .v4 address => toLex (4, address.octets.toList.map UInt8.toNat)
  | .v6 address => toLex (6, address.octets.toList.map UInt8.toNat)

theorem IpAddr.le_iff (left right : IpAddr) : left.le right = true ↔ left.sortKey ≤ right.sortKey := by
  cases left with
  | v4 first =>
      cases right with
      | v4 second =>
          rw [IpAddr.sortKey, IpAddr.sortKey, Prod.Lex.toLex_le_toLex]
          simp only [lt_self_iff_false, true_and, false_or]
          exact decide_eq_true_iff
      | v6 second => simp [IpAddr.le, IpAddr.sortKey, Prod.Lex.toLex_le_toLex]
  | v6 first =>
      cases right with
      | v4 second => simp [IpAddr.le, IpAddr.sortKey, Prod.Lex.toLex_le_toLex]
      | v6 second =>
          rw [IpAddr.sortKey, IpAddr.sortKey, Prod.Lex.toLex_le_toLex]
          simp only [lt_self_iff_false, true_and, false_or]
          exact decide_eq_true_iff

theorem IpAddr.sortKey_injective {left right : IpAddr} (same : left.sortKey = right.sortKey) :
    left = right := by
  have bytes : ∀ first second : List UInt8, first.map UInt8.toNat = second.map UInt8.toNat →
      first = second := fun _ _ equal =>
    List.map_injective_iff.mpr (fun _ _ values => UInt8.toNat_inj.mp values) equal
  cases left with
  | v4 first =>
      cases right with
      | v4 second =>
          simp only [IpAddr.sortKey, EmbeddingLike.apply_eq_iff_eq, Prod.mk.injEq, true_and] at same
          have octets := Vector.toList_inj.mp (bytes _ _ same)
          cases first
          cases second
          exact congrArg (fun octets => IpAddr.v4 ⟨octets⟩) octets
      | v6 second => simp [IpAddr.sortKey] at same
  | v6 first =>
      cases right with
      | v4 second => simp [IpAddr.sortKey] at same
      | v6 second =>
          simp only [IpAddr.sortKey, EmbeddingLike.apply_eq_iff_eq, Prod.mk.injEq, true_and] at same
          have octets := Vector.toList_inj.mp (bytes _ _ same)
          cases first
          cases second
          exact congrArg (fun octets => IpAddr.v6 ⟨octets⟩) octets

instance : IsTrans IpAddr fun left right => left.le right = true where
  trans _ _ _ := by
    simp only [IpAddr.le_iff]
    exact le_trans

instance : Std.Total fun left right : IpAddr => left.le right = true where
  total _ _ := by
    simp only [IpAddr.le_iff]
    exact le_total _ _

instance : Std.Antisymm fun left right : IpAddr => left.le right = true where
  antisymm _ _ := by
    simp only [IpAddr.le_iff]
    exact fun forth back => IpAddr.sortKey_injective (le_antisymm forth back)

variable {crawler : Crawler} {addresses : List SocketAddr}

theorem publicAddresses_sorted : (publicAddresses crawler addresses).Pairwise
    fun left right => left.le right = true ∧ left ≠ right := by
  have sorted := (List.pairwise_insertionSort (fun left right : IpAddr => left.le right = true)
    (addresses.map SocketAddr.ip)).sublist (List.destutter_sublist (· ≠ ·) _)
  have distinct := nodup_destutter_insertionSort (r := fun left right : IpAddr =>
    left.le right = true) (addresses.map SocketAddr.ip)
  exact (sorted.and distinct).sublist (List.take_sublist _ _)

theorem publicAddresses_length :
    (publicAddresses crawler addresses).length ≤ crawler.config.dnsMaxAddresses :=
  List.length_take_le _ _

end Addresses

section Record

variable (crate : UrlCrate) (crawler : Crawler)

def Event.isRequest : Event → Bool
  | .requested .. => true
  | _ => false

/-- The requests of a trace, in the order they were made. -/
def sent (trace : List Event) : List Event := (trace.filter Event.isRequest).reverse

/-- Each redirect starts where the one before it led. -/
def Linked : CrawlUrl → List CrawlRedirect → CrawlUrl → Prop
  | initial, [], final => final = initial
  | initial, redirect :: rest, final => redirect.origin = initial ∧ Linked redirect.target rest final

/-- The redirect is the one the answer to the request asked for. -/
def IsHop (request : Event) (redirect : CrawlRedirect) : Prop :=
  ∃ reply, request = .requested redirect.origin (some (.ok reply)) ∧
    isRedirect reply.status = true ∧ redirect.status = reply.status ∧
    nextTarget crate redirect.origin reply = .ok redirect.target

/-- The invariant of the loop at the start of a pass. -/
structure Following (initial : CrawlUrl) (remaining : Nat) (target : CrawlUrl)
    (redirectChain : List CrawlRedirect) (trace : List Event) : Prop where
  hops : List.Forall₂ (IsHop crate) (sent trace) redirectChain
  leads : Linked initial redirectChain target
  budget : redirectChain.length + remaining = crawler.config.maxRedirects

/-- The last exchanges are the resolution of the target's host and its request,
and the other requests are those made before. -/
structure Answered (visits : List Event) (target : CrawlUrl) (resolvedAddresses : List IpAddr)
    (reply : HttpResponse) (trace : List Event) : Prop where
  visit : ∃ addresses earlier,
    trace = .requested target (some (.ok reply)) ::
      .resolved target.host (.completed (.ok addresses)) :: earlier ∧
    resolvedAddresses = publicAddresses crawler addresses ∧
    ∀ address ∈ addresses, isPublicAddress address.ip = true
  requests : sent trace = visits ++ [.requested target (some (.ok reply))]
  body : reply.body.length ≤ crawler.config.maxResponseBytes

/-- What a response says of the exchanges that led to it. -/
structure Faithful (initial : CrawlUrl) (response : CrawlResponse) (trace : List Event) :
    Prop where
  leads : Linked initial response.redirects response.finalUrl
  bounded : response.redirects.length ≤ crawler.config.maxRedirects
  hops : ∃ visits reply,
    sent trace = visits ++ [.requested response.finalUrl (some (.ok reply))] ∧
    List.Forall₂ (IsHop crate) visits response.redirects ∧
    response.status = reply.status ∧ response.headers = reply.headers ∧
    response.body = reply.body
  status : isRedirect response.status = false
  body : response.body.length ≤ crawler.config.maxResponseBytes
  resolution : ∃ later reply addresses earlier,
    trace = later ++ .requested response.finalUrl reply ::
      .resolved response.finalUrl.host (.completed (.ok addresses)) :: earlier ∧
    (∀ event ∈ later, event.isRequest = false) ∧
    ∀ address ∈ response.resolvedAddresses, address ∈ addresses.map SocketAddr.ip
  sorted : response.resolvedAddresses.Pairwise fun left right => left.le right = true ∧ left ≠ right
  safe : ∀ address ∈ response.resolvedAddresses, isPublicAddress address = true
  few : response.resolvedAddresses.length ≤ crawler.config.dnsMaxAddresses

end Record

section Traces

variable {crate : UrlCrate} {crawler : Crawler} {trace : List Event}

theorem sent_cons {event : Event} (quiet : event.isRequest = false) :
    sent (event :: trace) = sent trace := by
  rw [sent, List.filter_cons, quiet]
  rfl

theorem sent_request (target : CrawlUrl)
    (answer : Option (Except HttpTransportError HttpResponse)) :
    sent (.requested target answer :: trace) = sent trace ++ [.requested target answer] :=
  List.reverse_cons

theorem sent_append {later : List Event} (quiet : ∀ event ∈ later, event.isRequest = false) :
    sent (later ++ trace) = sent trace := by
  induction later with
  | nil => rfl
  | cons event rest ih =>
      rw [List.cons_append, sent_cons (quiet event List.mem_cons_self)]
      exact ih fun other member => quiet other (List.mem_cons_of_mem event member)

theorem Linked.concat {initial target : CrawlUrl} {redirectChain : List CrawlRedirect}
    (leads : Linked initial redirectChain target) (next : CrawlUrl) (status : Nat) :
    Linked initial (redirectChain ++ [⟨target, next, status⟩]) next := by
  induction redirectChain generalizing initial with
  | nil => exact ⟨leads, rfl⟩
  | cons redirect rest ih => exact ⟨leads.1, ih leads.2⟩

/-- A redirect that is followed keeps the invariant, with one hop less to go. -/
theorem Following.next {initial target next : CrawlUrl} {remaining : Nat}
    {redirectChain : List CrawlRedirect} {visits : List Event} {resolved : List IpAddr}
    {reply : HttpResponse} (hops : List.Forall₂ (IsHop crate) visits redirectChain)
    (leads : Linked initial redirectChain target)
    (budget : redirectChain.length + (remaining + 1) = crawler.config.maxRedirects)
    (answered : Answered crawler visits target resolved reply trace)
    (redirected : isRedirect reply.status = true)
    (found : nextTarget crate target reply = .ok next) :
    Following crate crawler initial remaining next
      (redirectChain ++ [⟨target, next, reply.status⟩]) trace := by
  have hop : IsHop crate (.requested target (some (.ok reply))) ⟨target, next, reply.status⟩ :=
    ⟨reply, rfl, redirected, rfl, found⟩
  constructor
  · rw [answered.requests]
    exact List.rel_append hops (.cons hop .nil)
  · exact leads.concat next reply.status
  · rw [List.length_append, List.length_singleton]
    omega

end Traces

section Programs

variable {crate : UrlCrate} {world : World} {crawler : Crawler}

theorem validateTarget_sent (visits : List Event) (target : CrawlUrl) :
    Triple (fun trace => sent trace = visits) (validateTarget world crawler target)
      (fun resolved trace => sent trace = visits ∧ ∃ addresses earlier,
        trace = .resolved target.host (.completed (.ok addresses)) :: earlier ∧
        resolved = publicAddresses crawler addresses ∧
        ∀ address ∈ addresses, isPublicAddress address.ip = true)
      fun _ trace => (sent trace).length ≤ visits.length + 1 := by
  apply Triple.observe
  intro cancelled
  split
  · apply Triple.fail
    rintro trace ⟨rfl, _⟩
    exact Nat.le_succ _
  · apply Triple.exchange
    intro answer
    have quiet : ∀ trace, (∃ earlier, trace = .resolved target.host answer :: earlier ∧
        (sent earlier = visits ∧ world.cancelled earlier = cancelled) ∧
        world.resolve earlier target.host = answer) → sent trace = visits := by
      rintro _ ⟨earlier, rfl, ⟨same, _⟩, _⟩
      rw [sent_cons rfl, same]
    have fewer : ∀ trace, (∃ earlier, trace = .resolved target.host answer :: earlier ∧
        (sent earlier = visits ∧ world.cancelled earlier = cancelled) ∧
        world.resolve earlier target.host = answer) →
        (sent trace).length ≤ visits.length + 1 := by
      intro trace after
      rw [quiet trace after]
      exact Nat.le_succ _
    split
    · exact Triple.fail fewer
    · exact Triple.fail fewer
    · exact Triple.fail fewer
    · rename_i addresses
      split
      · exact Triple.fail fewer
      · rename_i valid
        apply Triple.pure
        intro trace after
        have same := quiet trace after
        obtain ⟨earlier, split, _⟩ := after
        exact ⟨same, addresses, earlier, split, rfl, validateAddresses_eq_ok valid⟩

theorem acquire_sent (visits : List Event) (target : CrawlUrl) :
    Triple (fun trace => sent trace = visits) (acquire world crawler target)
      (fun acquired => Answered crawler visits target acquired.1 acquired.2)
      fun _ trace => (sent trace).length ≤ visits.length + 1 := by
  unfold acquire
  apply Triple.bind (validateTarget_sent visits target)
  intro resolved
  apply Triple.observe
  intro cancelled
  split
  · apply Triple.fail
    rintro trace ⟨⟨same, _⟩, _⟩
    rw [same]
    exact Nat.le_succ _
  · apply Triple.exchange
    intro answer
    have counted : ∀ trace, (∃ earlier, trace = .requested target answer :: earlier ∧
        ((sent earlier = visits ∧ ∃ addresses rest,
          earlier = .resolved target.host (.completed (.ok addresses)) :: rest ∧
          resolved = publicAddresses crawler addresses ∧
          ∀ address ∈ addresses, isPublicAddress address.ip = true) ∧
          world.cancelled earlier = cancelled) ∧
        world.get earlier target crawler.config.maxResponseBytes = answer) →
        sent trace = visits ++ [.requested target answer] := by
      rintro _ ⟨earlier, rfl, ⟨⟨same, _⟩, _⟩, _⟩
      rw [sent_request, same]
    split
    · apply Triple.fail
      intro trace after
      rw [counted trace after, List.length_append, List.length_singleton]
    · apply Triple.fail
      intro trace after
      rw [counted trace after, List.length_append, List.length_singleton]
    · rename_i reply
      split
      · apply Triple.fail
        intro trace after
        rw [counted trace after, List.length_append, List.length_singleton]
      · rename_i fits
        apply Triple.pure
        intro trace after
        have same := counted trace after
        obtain ⟨_, split, ⟨⟨_, addresses, rest, rfl, own, safe⟩, _⟩, _⟩ := after
        exact ⟨⟨addresses, rest, split, own, safe⟩, same, Nat.le_of_not_lt fits⟩

/-- What comes after the last answer are probes, so the record is complete. -/
theorem finish_faithful (captureOptionalFacts : Bool) {initial target : CrawlUrl}
    {redirectChain : List CrawlRedirect} {visits : List Event} {resolved : List IpAddr}
    {reply : HttpResponse} (hops : List.Forall₂ (IsHop crate) visits redirectChain)
    (leads : Linked initial redirectChain target)
    (bounded : redirectChain.length ≤ crawler.config.maxRedirects)
    (arrived : isRedirect reply.status = false) :
    Triple (Answered crawler visits target resolved reply)
      (finish world crawler captureOptionalFacts target redirectChain resolved reply)
      (fun response trace => Faithful crate crawler initial response trace) fun _ _ => False := by
  intro trace answered
  obtain ⟨addresses, earlier, split, own, safe⟩ := answered.visit
  have faithful : ∀ response later, response.redirects = redirectChain →
      response.finalUrl = target → response.status = reply.status →
      response.headers = reply.headers → response.body = reply.body →
      response.resolvedAddresses = resolved → (∀ event ∈ later, event.isRequest = false) →
      Faithful crate crawler initial response (later ++ trace) := by
    intro response later sameChain sameUrl sameStatus sameHeaders sameBody sameAddresses quiet
    have known : ∀ address ∈ publicAddresses crawler addresses,
        address ∈ addresses.map SocketAddr.ip := publicAddresses_subset addresses
    constructor
    · rw [sameChain, sameUrl]
      exact leads
    · rw [sameChain]
      exact bounded
    · rw [sent_append quiet, answered.requests, sameChain, sameUrl]
      exact ⟨visits, reply, rfl, hops, sameStatus, sameHeaders, sameBody⟩
    · rw [sameStatus]
      exact arrived
    · rw [sameBody]
      exact answered.body
    · rw [split, sameUrl, sameAddresses, own]
      exact ⟨later, _, addresses, earlier, rfl, quiet, known⟩
    · rw [sameAddresses, own]
      exact publicAddresses_sorted
    · rw [sameAddresses, own]
      intro address member
      obtain ⟨socket, inAddresses, rfl⟩ := List.mem_map.mp (known address member)
      exact safe socket inAddresses
    · rw [sameAddresses, own]
      exact publicAddresses_length
  cases captureOptionalFacts with
  | false => exact faithful _ [] rfl rfl rfl rfl rfl rfl (fun _ member => nomatch member)
  | true =>
      have kept : ∀ current, (∃ later, current = later ++ trace ∧
          ∀ event ∈ later, event.isRequest = false) → ∀ ip ∈ resolved, ∀ port verify answer,
          ∃ later, .probed target.host ⟨ip, port⟩ verify answer :: current = later ++ trace ∧
            ∀ event ∈ later, event.isRequest = false := by
        rintro _ ⟨later, rfl, quiet⟩ ip _ port verify answer
        refine ⟨.probed target.host ⟨ip, port⟩ verify answer :: later, rfl, ?_⟩
        intro event member
        rcases List.mem_cons.mp member with rfl | old
        · rfl
        · exact quiet event old
      refine Triple.bind (captureTls_triple target resolved kept) (fun tls => ?_) trace
        ⟨[], rfl, fun _ member => nomatch member⟩
      apply Triple.pure
      rintro _ ⟨later, rfl, quiet⟩
      exact faithful _ later rfl rfl rfl rfl rfl rfl quiet

/-- The loop, by induction on the redirects it still follows. -/
theorem fetchLoop_faithful (captureOptionalFacts : Bool) (remaining : Nat)
    (initial target : CrawlUrl) (redirectChain : List CrawlRedirect) :
    Triple (Following crate crawler initial remaining target redirectChain)
      (fetchLoop crate world crawler captureOptionalFacts remaining target redirectChain)
      (fun response trace => Faithful crate crawler initial response trace)
      fun _ trace => (sent trace).length ≤ crawler.config.maxRedirects + 1 := by
  induction remaining generalizing target redirectChain with
  | zero =>
      intro trace following
      obtain ⟨hops, leads, budget⟩ := following
      have length := hops.length_eq
      unfold fetchLoop
      refine Triple.bind ((acquire_sent (sent trace) target).conseq (fun _ same => same)
        (fun _ _ after => after) fun _ later few => ?_) ?_ trace rfl
      · omega
      · rintro ⟨resolved, reply⟩
        dsimp only
        split
        · apply Triple.fail
          intro later answered
          rw [answered.requests, List.length_append, List.length_singleton]
          omega
        · rename_i arrived
          exact (finish_faithful captureOptionalFacts hops leads (by omega)
            (Bool.eq_false_of_not_eq_true arrived)).conseq (fun _ answered => answered)
            (fun _ _ after => after) fun _ _ impossible => impossible.elim
  | succ remaining ih =>
      intro trace following
      obtain ⟨hops, leads, budget⟩ := following
      have length := hops.length_eq
      unfold fetchLoop
      refine Triple.bind ((acquire_sent (sent trace) target).conseq (fun _ same => same)
        (fun _ _ after => after) fun _ later few => ?_) ?_ trace rfl
      · omega
      · rintro ⟨resolved, reply⟩
        dsimp only
        split
        · rename_i redirected
          cases found : nextTarget crate target reply with
          | error error =>
              apply Triple.fail
              intro later answered
              rw [answered.requests, List.length_append, List.length_singleton]
              omega
          | ok next =>
              exact (ih next _).conseq (fun _ answered =>
                Following.next hops leads budget answered redirected found)
                (fun _ _ after => after) fun _ _ few => few
        · rename_i arrived
          exact (finish_faithful captureOptionalFacts hops leads (by omega)
            (Bool.eq_false_of_not_eq_true arrived)).conseq (fun _ answered => answered)
            (fun _ _ after => after) fun _ _ impossible => impossible.elim

/-- However the server redirects, a fetch makes at most one request more than it
may follow redirects, and a response records exactly the hops that were made. -/
theorem fetchUnchecked_faithful (crate : UrlCrate) (world : World) (crawler : Crawler)
    (initial : CrawlUrl) (captureOptionalFacts : Bool) :
    let (result, trace) := fetchUnchecked crate world crawler initial captureOptionalFacts []
    (sent trace).length ≤ crawler.config.maxRedirects + 1 ∧
      ∀ response, result = .ok response → Faithful crate crawler initial response trace := by
  have start : Following crate crawler initial crawler.config.maxRedirects initial [] [] :=
    ⟨.nil, rfl, Nat.zero_add _⟩
  have triple : Triple (Following crate crawler initial crawler.config.maxRedirects initial [])
      (fetchUnchecked crate world crawler initial captureOptionalFacts)
      (fun response trace => Faithful crate crawler initial response trace)
      fun _ trace => (sent trace).length ≤ crawler.config.maxRedirects + 1 :=
    fetchLoop_faithful captureOptionalFacts crawler.config.maxRedirects initial initial []
  have ended := triple [] start
  rcases fetched : fetchUnchecked crate world crawler initial captureOptionalFacts [] with
    ⟨error | response, trace⟩
  · rw [fetched] at ended
    refine ⟨ended, ?_⟩
    intro response impossible
    cases impossible
  · rw [fetched] at ended
    constructor
    · obtain ⟨visits, reply, all, hops, _⟩ := ended.hops
      rw [all, List.length_append, List.length_singleton, hops.length_eq]
      have bounded := ended.bounded
      omega
    · intro other same
      cases same
      exact ended

end Programs

end TechAtlas.Acquisition
