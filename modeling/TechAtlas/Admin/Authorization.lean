import TechAtlas.Admin.RateLimits
import TechAtlas.Library.Drift
import TechAtlas.Library.Transition

set_option autoImplicit false

/- `OidcAdminAuthorizer`: concurrent requests share a cache of the provider's keys and
a limiter. A request gives way to others wherever it waits for a lock or a response. -/
namespace TechAtlas.Admin

open Library

section Principals

inductive AdminPermission
  | view
  | operate
  deriving DecidableEq, Repr

structure AdminPrincipal where
  subject : Text
  permissions : List Text
  deriving DecidableEq, Repr

/-- `sort` and `dedup`. -/
def AdminPrincipal.new (subject : Text) (permissions : List Text) : AdminPrincipal where
  subject := subject
  permissions := (permissions.insertionSort (· ≤ ·)).destutter (· ≠ ·)

def AdminPrincipal.permits (principal : AdminPrincipal) : AdminPermission → Bool
  | .view => principal.permissions.any fun permission =>
      permission == "admin:read".toList || permission == "admin:operate".toList
  | .operate => principal.permissions.any fun permission => permission == "admin:operate".toList

/-- `matches!(permission, AdminPermission::Operate)`. -/
def AdminPermission.isMutation : AdminPermission → Bool
  | .view => false
  | .operate => true

/-- Names in lower case, with the bytes of the values. -/
abbrev HeaderMap := List (Text × List UInt8)

/-- `HeaderValue::to_str`: visible ASCII and tabs. -/
def headerText (value : List UInt8) : Option Text :=
  if value.all fun byte => (32 ≤ byte && byte < 127) || byte == 9 then
    some (value.map fun byte => Char.ofNat byte.toNat)
  else none

def bearerToken (headers : HeaderMap) : Except AdminAuthorizationError Text :=
  let token := do
    let header ← headers.find? fun header => header.1 == "authorization".toList
    let text ← headerText header.2
    let token ← "Bearer ".toList.isPrefixOf? text
    if token.isEmpty then none else some token
  match token with
  | some token => .ok token
  | none => .error .unauthorized

end Principals

section Tokens

inductive Algorithm
  | rs256
  | other
  deriving DecidableEq, Repr

structure JwtHeader where
  alg : Algorithm
  kid : Option Text

structure Jwk where
  keyId : Option Text
  material : Text
  deriving DecidableEq, Repr

structure OidcClaims where
  sub : Text
  permissions : List Text

/-- The token library. Decoding checks the signature with the key, the algorithm, the
issuer, the audience and, at the given time, the expiry. -/
structure Tokens where
  DecodingKey : Type
  decodeHeader : Text → Option JwtHeader
  fromJwk : Jwk → Option DecodingKey
  decode : Text → DecodingKey → Algorithm → Text → Text → Nat → Option OidcClaims

end Tokens

section Model

def jwksCacheTtl : Nat := 300 * nanosPerSecond

structure CachedJwks where
  value : List Jwk
  expiresAt : Nat

/-- How far a request has come. -/
inductive Progress (DecodingKey : Type)
  | arrived
  | lookingUp (token keyId : Text)
  | fetching (token keyId : Text)
  | storing (token keyId : Text) (keys : List Jwk) (now : Nat)
  | verifying (token : Text) (key : DecodingKey)
  | limiting (principal : AdminPrincipal) (now : Nat)
  | accepted (principal : AdminPrincipal) (now : Nat)
  | limited (principal : AdminPrincipal) (now retryAfterSeconds : Nat)
  | rejected (reason : AdminAuthorizationError)
  deriving DecidableEq

/-- `arrivedAt` is the reading of the clock when the request arrived. -/
structure Request (DecodingKey : Type) where
  headers : HeaderMap
  permission : AdminPermission
  arrivedAt : Nat
  progress : Progress DecodingKey
  deriving DecidableEq

/-- What `authorize` has answered. -/
def Progress.answer {DecodingKey : Type} :
    Progress DecodingKey → Option (Except AdminAuthorizationError AdminPrincipal)
  | .accepted principal _ => some (.ok principal)
  | .limited _ _ retryAfterSeconds => some (.error (.rateLimited retryAfterSeconds))
  | .rejected reason => some (.error reason)
  | _ => none

/-- `stored` remembers every key set that was put into the cache, with the reading of the
clock from which it lives. -/
structure OidcAdminAuthorizer (DecodingKey : Type) where
  clock : Nat
  keys : Option CachedJwks
  stored : List (List Jwk × Nat)
  rateLimiter : SubjectRateLimiter
  requests : List (Request DecodingKey)

def OidcAdminAuthorizer.new (DecodingKey : Type) (requestsPerMinute mutationsPerMinute : Nat) :
    OidcAdminAuthorizer DecodingKey where
  clock := 0
  keys := none
  stored := []
  rateLimiter := .new requestsPerMinute mutationsPerMinute
  requests := []

/-- `validUntil` tells the wall clock of a verification. The response of a fetch is
`none` when the request, its status or its body is no key set. -/
inductive AuthorizeAction
  | tick (nanoseconds : Nat)
  | arrive (headers : HeaderMap) (permission : AdminPermission)
  | readToken (place : Nat)
  | lookUp (place : Nat)
  | fetch (place : Nat) (response : Option (List Jwk))
  | store (place : Nat)
  | verify (place wallClock : Nat)
  | check (place : Nat)

variable (tokens : Tokens) (issuer audience : Text)

def findKey (keys : List Jwk) (keyId : Text) : Option Jwk :=
  keys.find? fun key => key.keyId == some keyId

/-- Up to the first lock. -/
def readToken (headers : HeaderMap) : Except AdminAuthorizationError (Text × Text) := do
  let token ← bearerToken headers
  match tokens.decodeHeader token with
  | some { alg := .rs256, kid := some keyId } => .ok (token, keyId)
  | _ => .error .unauthorized

/-- `DecodingKey::from_jwk`. -/
def withKey (token : Text) (key : Jwk) : Progress tokens.DecodingKey :=
  match tokens.fromJwk key with
  | some key => .verifying token key
  | none => .rejected .unauthorized

/-- The cached key, unless the set has expired or does not have it. -/
def cachedKey (keys : Option CachedJwks) (clock : Nat) (keyId : Text) : Option Jwk := do
  let cached ← keys
  if clock < cached.expiresAt then findKey cached.value keyId else none

/-- What the claims say of the caller; the clock is read on the way to the limiter. -/
def verified (token : Text) (key : tokens.DecodingKey) (permission : AdminPermission)
    (wallClock clock : Nat) : Progress tokens.DecodingKey :=
  match tokens.decode token key .rs256 issuer audience wallClock with
  | none => .rejected .unauthorized
  | some claims =>
      if (trim claims.sub).isEmpty then .rejected .unauthorized
      else
        let principal := AdminPrincipal.new claims.sub claims.permissions
        if principal.permits permission then .limiting principal clock else .rejected .forbidden

section Steps

variable (s : OidcAdminAuthorizer tokens.DecodingKey)

variable {tokens} in
def OidcAdminAuthorizer.advance (place : Nat) (request : Request tokens.DecodingKey)
    (progress : Progress tokens.DecodingKey) : OidcAdminAuthorizer tokens.DecodingKey :=
  { s with requests := s.requests.set place { request with progress := progress } }

def OidcAdminAuthorizer.readToken (place : Nat) : OidcAdminAuthorizer tokens.DecodingKey :=
  match s.requests[place]? with
  | some request =>
      match request.progress with
      | .arrived => s.advance place request
          (match Admin.readToken tokens request.headers with
          | .ok (token, keyId) => .lookingUp token keyId
          | .error reason => .rejected reason)
      | _ => s
  | none => s

def OidcAdminAuthorizer.lookUp (place : Nat) : OidcAdminAuthorizer tokens.DecodingKey :=
  match s.requests[place]? with
  | some request =>
      match request.progress with
      | .lookingUp token keyId => s.advance place request
          (match cachedKey s.keys s.clock keyId with
          | some key => withKey tokens token key
          | none => .fetching token keyId)
      | _ => s
  | none => s

/-- The clock is read on the way to the lock of the cache. -/
def OidcAdminAuthorizer.fetch (place : Nat) (response : Option (List Jwk)) :
    OidcAdminAuthorizer tokens.DecodingKey :=
  match s.requests[place]? with
  | some request =>
      match request.progress with
      | .fetching token keyId => s.advance place request
          (match response with
          | some (key :: keys) => .storing token keyId (key :: keys) s.clock
          | _ => .rejected .unavailable)
      | _ => s
  | none => s

/-- The set replaces the cached one, whichever was fetched first, with the reading from
before the wait. -/
def OidcAdminAuthorizer.store (place : Nat) : OidcAdminAuthorizer tokens.DecodingKey :=
  match s.requests[place]? with
  | some request =>
      match request.progress with
      | .storing token keyId keys now => { s with
          keys := some { value := keys, expiresAt := now + jwksCacheTtl }
          stored := s.stored ++ [(keys, now)] }.advance place request
          (match findKey keys keyId with
          | some key => withKey tokens token key
          | none => .rejected .unauthorized)
      | _ => s
  | none => s

def OidcAdminAuthorizer.verify (place wallClock : Nat) : OidcAdminAuthorizer tokens.DecodingKey :=
  match s.requests[place]? with
  | some request =>
      match request.progress with
      | .verifying token key => s.advance place request
          (verified tokens issuer audience token key request.permission wallClock s.clock)
      | _ => s
  | none => s

/-- The limiter under its lock, with the reading from before the wait. -/
def OidcAdminAuthorizer.check (place : Nat) : OidcAdminAuthorizer tokens.DecodingKey :=
  match s.requests[place]? with
  | some request =>
      match request.progress with
      | .limiting principal now =>
          let (result, rateLimiter) := s.rateLimiter.check
            ⟨principal.subject, request.permission.isMutation, now⟩
          { s with rateLimiter := rateLimiter }.advance place request
            (match result with
            | .ok _ => .accepted principal now
            | .error (.rateLimited seconds) => .limited principal now seconds
            | .error reason => .rejected reason)
      | _ => s
  | none => s

def OidcAdminAuthorizer.step : AuthorizeAction → OidcAdminAuthorizer tokens.DecodingKey
  | .tick nanoseconds => { s with clock := s.clock + nanoseconds }
  | .arrive headers permission => { s with
      requests := s.requests ++ [⟨headers, permission, s.clock, .arrived⟩] }
  | .readToken place => s.readToken tokens place
  | .lookUp place => s.lookUp tokens place
  | .fetch place response => s.fetch tokens place response
  | .store place => s.store tokens place
  | .verify place wallClock => s.verify tokens issuer audience place wallClock
  | .check place => s.check tokens place

end Steps

/-- The authorizer after a run from its start. -/
def OidcAdminAuthorizer.after (requestsPerMinute mutationsPerMinute : Nat)
    (actions : List AuthorizeAction) : OidcAdminAuthorizer tokens.DecodingKey :=
  run (fun s action => OidcAdminAuthorizer.step tokens issuer audience s action)
    (OidcAdminAuthorizer.new tokens.DecodingKey requestsPerMinute mutationsPerMinute) actions

end Model

section Rates

variable {tokens : Tokens} {issuer audience : Text} {s : OidcAdminAuthorizer tokens.DecodingKey}
  {request : Request tokens.DecodingKey} {place : Nat} {lag : Nat}

/-- An accepted request of the subject and kind whose reading passes the test. -/
def Request.isCounted {DecodingKey : Type} (mutation : Bool) (subject : Text) (test : Nat → Bool)
    (request : Request DecodingKey) : Bool :=
  match request.progress with
  | .accepted principal now =>
      request.permission.isMutation == mutation && principal.subject == subject && test now
  | _ => false

def OidcAdminAuthorizer.countAccepted {DecodingKey : Type} (s : OidcAdminAuthorizer DecodingKey)
    (mutation : Bool) (subject : Text) (test : Nat → Bool) : Nat :=
  s.requests.countP (Request.isCounted mutation subject test)

/-- A request gets the limiter's lock at most the lag after it has read the clock. -/
def Prompt {DecodingKey : Type} (lag : Nat) (s : OidcAdminAuthorizer DecodingKey) :
    AuthorizeAction → Prop
  | .check place => ∀ request ∈ s.requests[place]?,
      match request.progress with
      | .limiting _ now => s.clock ≤ now + lag
      | _ => True
  | _ => True

instance {DecodingKey : Type} (lag : Nat) (s : OidcAdminAuthorizer DecodingKey) :
    (action : AuthorizeAction) → Decidable (Prompt lag s action)
  | .check place =>
      have : ∀ request : Request DecodingKey, Decidable (match request.progress with
          | .limiting _ now => s.clock ≤ now + lag
          | _ => True) := fun request => by split <;> infer_instance
      inferInstanceAs (Decidable (∀ request ∈ s.requests[place]?, _))
  | .tick .. | .arrive .. | .readToken .. | .lookUp .. | .fetch .. | .store .. | .verify .. =>
      .isTrue trivial

/-- The queue of a subject and kind, with the instants pruned from it, holds the
readings of the accepted requests; a refused request has found the queue full. -/
structure Metered (limit : Bool → Nat) (lag : Nat) (s : OidcAdminAuthorizer tokens.DecodingKey) :
    Prop where
  limits : s.rateLimiter.limit = limit
  readings : ∀ request ∈ s.requests, ∀ principal now,
    request.progress = .limiting principal now → now ≤ s.clock
  queues : ∀ mutation subject, ∃ gone,
    Drifting (limit mutation) rateLimitWindow lag s.clock gone
      (s.rateLimiter.acceptedAt (entryKey mutation subject)) ∧
    ∀ test, s.countAccepted mutation subject test =
      (gone ++ s.rateLimiter.acceptedAt (entryKey mutation subject)).countP test
  refused : ∀ request ∈ s.requests, ∀ principal now seconds,
    request.progress = .limited principal now seconds →
      limit request.permission.isMutation ≤ s.countAccepted request.permission.isMutation
        principal.subject fun instant => decide (now < instant + rateLimitWindow + lag)

/-- A request moves on without an answer of the limiter. -/
def Progress.isQuiet {DecodingKey : Type} : Progress DecodingKey → Bool
  | .accepted .. => false
  | .limited .. => false
  | _ => true

theorem countAccepted_advance (found : s.requests[place]? = some request)
    (quiet : request.progress.isQuiet = true) (progress : Progress tokens.DecodingKey)
    (mutation : Bool) (subject : Text) (test : Nat → Bool) :
    (s.advance place request progress).countAccepted mutation subject test =
      s.countAccepted mutation subject test +
        if Request.isCounted mutation subject test { request with progress := progress } then 1
        else 0 := by
  obtain ⟨inside, same⟩ := List.getElem?_eq_some_iff.mp found
  have uncounted : Request.isCounted mutation subject test request = false := by
    unfold Request.isCounted
    cases kind : request.progress <;> first | rfl | (rw [kind] at quiet; cases quiet)
  rw [OidcAdminAuthorizer.countAccepted, OidcAdminAuthorizer.advance, List.countP_set inside, same,
    uncounted]
  rfl

theorem Metered.advance {limit : Bool → Nat} (metered : Metered limit lag s)
    (found : s.requests[place]? = some request) (quiet : request.progress.isQuiet = true)
    {progress : Progress tokens.DecodingKey} (stays : progress.isQuiet = true)
    (read : ∀ principal now, progress = .limiting principal now → now ≤ s.clock) :
    Metered limit lag (s.advance place request progress) := by
  have same : ∀ mutation subject test,
      (s.advance place request progress).countAccepted mutation subject test =
        s.countAccepted mutation subject test := by
    intro mutation subject test
    have uncounted : Request.isCounted mutation subject test
        { request with progress := progress } = false := by
      unfold Request.isCounted
      cases progress <;> first | rfl | cases stays
    rw [countAccepted_advance found quiet, uncounted]
    rfl
  refine ⟨metered.limits, ?_, ?_, ?_⟩
  · intro other member principal now limiting
    rcases List.mem_or_eq_of_mem_set member with old | rfl
    · exact metered.readings other old principal now limiting
    · exact read principal now limiting
  · intro mutation subject
    obtain ⟨gone, drifting, counted⟩ := metered.queues mutation subject
    exact ⟨gone, drifting, fun test => (same mutation subject test).trans (counted test)⟩
  · intro other member principal now seconds limited
    rcases List.mem_or_eq_of_mem_set member with old | rfl
    · rw [same]
      exact metered.refused other old principal now seconds limited
    · dsimp only at limited
      rw [limited] at stays
      cases stays

theorem check_cases (limiter : SubjectRateLimiter) (call : Call) :
    let key := entryKey call.mutation call.subject
    let left := pruned rateLimitWindow call.now (limiter.acceptedAt key)
    (limiter.limit call.mutation ≤ left.length ∧ limiter.check call =
        (.error (.rateLimited (retryAfter left call.now)), limiter.store key left)) ∨
      (left.length < limiter.limit call.mutation ∧
        limiter.check call = (.ok (), limiter.store key (left ++ [call.now]))) := by
  intro key left
  by_cases taken : limiter.limit call.mutation ≤ left.length
  · exact Or.inl ⟨taken, if_pos taken⟩
  · exact Or.inr ⟨Nat.lt_of_not_le taken, if_neg taken⟩

theorem rateLimitWindow_pos : 0 < rateLimitWindow := by decide

theorem store_self (limiter : SubjectRateLimiter) (key : Text) (queue : List Nat) :
    (limiter.store key queue).acceptedAt key = queue := Function.update_self ..

theorem store_other (limiter : SubjectRateLimiter) {key other : Text} (different : other ≠ key)
    (queue : List Nat) : (limiter.store key queue).acceptedAt other = limiter.acceptedAt other :=
  Function.update_of_ne different ..

variable {limit : Bool → Nat} {principal : AdminPrincipal} {now : Nat}

theorem Metered.limited (metered : Metered limit lag s) (found : s.requests[place]? = some request)
    (limiting : request.progress = .limiting principal now) (seconds : Nat)
    (taken : limit request.permission.isMutation ≤ (pruned rateLimitWindow now
      (s.rateLimiter.acceptedAt
        (entryKey request.permission.isMutation principal.subject))).length) :
    Metered limit lag ({ s with
      rateLimiter := s.rateLimiter.store (entryKey request.permission.isMutation principal.subject)
        (pruned rateLimitWindow now (s.rateLimiter.acceptedAt
          (entryKey request.permission.isMutation principal.subject))) }.advance place request
        (.limited principal now seconds)) := by
  have quiet : request.progress.isQuiet = true := by
    rw [limiting]
    rfl
  have read := metered.readings request (List.mem_of_getElem? found) principal now limiting
  have same : ∀ mutation subject test,
      (s.advance place request (.limited principal now seconds)).countAccepted mutation subject
          test = s.countAccepted mutation subject test :=
    fun mutation subject test => countAccepted_advance found quiet _ mutation subject test
  refine ⟨metered.limits, ?_, ?_, ?_⟩
  · intro other member principal' now' progress
    rcases List.mem_or_eq_of_mem_set member with old | rfl
    · exact metered.readings other old principal' now' progress
    · cases progress
  · intro mutation subject
    obtain ⟨gone, drifting, counted⟩ := metered.queues mutation subject
    by_cases own : mutation = request.permission.isMutation ∧ subject = principal.subject
    · obtain ⟨rfl, rfl⟩ := own
      refine ⟨gone ++ expired rateLimitWindow now (s.rateLimiter.acceptedAt
        (entryKey request.permission.isMutation principal.subject)), ?_, ?_⟩
      · rw [OidcAdminAuthorizer.advance, store_self]
        exact drifting.prune rateLimitWindow_pos read
      · intro test
        refine (same _ _ test).trans ((counted test).trans ?_)
        rw [OidcAdminAuthorizer.advance, store_self, List.append_assoc, expired_append_pruned]
    · have different : entryKey mutation subject ≠
          entryKey request.permission.isMutation principal.subject :=
        fun equal => own (entryKey_injective equal)
      refine ⟨gone, ?_, ?_⟩
      · rw [OidcAdminAuthorizer.advance, store_other _ different]
        exact drifting
      · intro test
        rw [OidcAdminAuthorizer.advance, store_other _ different]
        exact (same _ _ test).trans (counted test)
  · intro other member principal' now' seconds' progress
    rcases List.mem_or_eq_of_mem_set member with old | rfl
    · exact (metered.refused other old principal' now' seconds' progress).trans
        (Nat.le_of_eq (same _ _ _).symm)
    · cases progress
      obtain ⟨gone, drifting, counted⟩ :=
        metered.queues request.permission.isMutation principal.subject
      refine (drifting.full rateLimitWindow_pos taken).trans (Nat.le_of_eq ?_)
      exact ((same _ _ _).trans (counted _)).symm

theorem Metered.accepted (metered : Metered limit lag s) (found : s.requests[place]? = some request)
    (limiting : request.progress = .limiting principal now) (prompt : s.clock ≤ now + lag)
    (room : (pruned rateLimitWindow now (s.rateLimiter.acceptedAt
      (entryKey request.permission.isMutation principal.subject))).length <
        limit request.permission.isMutation) :
    Metered limit lag ({ s with
      rateLimiter := s.rateLimiter.store (entryKey request.permission.isMutation principal.subject)
        (pruned rateLimitWindow now (s.rateLimiter.acceptedAt
          (entryKey request.permission.isMutation principal.subject)) ++ [now]) }.advance place
        request (.accepted principal now)) := by
  have quiet : request.progress.isQuiet = true := by
    rw [limiting]
    rfl
  have read := metered.readings request (List.mem_of_getElem? found) principal now limiting
  have grown (mutation : Bool) (subject : Text) (test : Nat → Bool) :=
    countAccepted_advance found quiet (.accepted principal now) mutation subject test
  refine ⟨metered.limits, ?_, ?_, ?_⟩
  · intro other member principal' now' progress
    rcases List.mem_or_eq_of_mem_set member with old | rfl
    · exact metered.readings other old principal' now' progress
    · cases progress
  · intro mutation subject
    obtain ⟨gone, drifting, counted⟩ := metered.queues mutation subject
    by_cases own : mutation = request.permission.isMutation ∧ subject = principal.subject
    · obtain ⟨rfl, rfl⟩ := own
      refine ⟨gone ++ expired rateLimitWindow now (s.rateLimiter.acceptedAt
        (entryKey request.permission.isMutation principal.subject)), ?_, ?_⟩
      · rw [OidcAdminAuthorizer.advance, store_self]
        exact drifting.admit rateLimitWindow_pos read prompt room
      · intro test
        have whole := expired_append_pruned rateLimitWindow now (s.rateLimiter.acceptedAt
          (entryKey request.permission.isMutation principal.subject))
        refine (grown _ _ test).trans ?_
        rw [counted test, OidcAdminAuthorizer.advance, store_self, ← List.append_assoc,
          List.append_assoc gone, whole]
        simp [Request.isCounted, List.countP_append, List.countP_singleton, Nat.add_assoc]
    · have different : entryKey mutation subject ≠
          entryKey request.permission.isMutation principal.subject :=
        fun equal => own (entryKey_injective equal)
      have uncounted (test : Nat → Bool) : ({ request with
          progress := .accepted principal now } : Request tokens.DecodingKey).isCounted mutation
            subject test = false := by
        rw [Bool.eq_false_iff]
        intro countedNow
        simp only [Request.isCounted, Bool.and_eq_true, beq_iff_eq] at countedNow
        exact own ⟨countedNow.1.1.symm, countedNow.1.2.symm⟩
      refine ⟨gone, ?_, ?_⟩
      · rw [OidcAdminAuthorizer.advance, store_other _ different]
        exact drifting
      · intro test
        refine (grown _ _ test).trans ?_
        rw [uncounted, OidcAdminAuthorizer.advance, store_other _ different]
        exact counted test
  · intro other member principal' now' seconds' progress
    rcases List.mem_or_eq_of_mem_set member with old | rfl
    · refine (metered.refused other old principal' now' seconds' progress).trans ?_
      exact (Nat.le_add_right _ _).trans (Nat.le_of_eq (grown _ _ _).symm)
    · cases progress

theorem Metered.check (metered : Metered limit lag s) (prompt : Prompt lag s (.check place)) :
    Metered limit lag (s.check tokens place) := by
  unfold OidcAdminAuthorizer.check
  split
  · rename_i request found
    have waited := prompt request found
    split
    · rename_i principal now limiting
      rw [limiting] at waited
      have limits := metered.limits
      rcases check_cases s.rateLimiter ⟨principal.subject, request.permission.isMutation, now⟩ with
        ⟨taken, outcome⟩ | ⟨room, outcome⟩
      · rw [outcome]
        rw [limits] at taken
        exact metered.limited found limiting _ taken
      · rw [outcome]
        rw [limits] at room
        exact metered.accepted found limiting waited room
    · exact metered
  · exact metered

/-- Before the limiter. -/
theorem isQuiet_withKey (token : Text) (key : Jwk) : (withKey tokens token key).isQuiet = true ∧
    ∀ principal now, withKey tokens token key ≠ .limiting principal now := by
  unfold withKey
  split
  · exact ⟨rfl, fun _ _ same => nomatch same⟩
  · exact ⟨rfl, fun _ _ same => nomatch same⟩

theorem isQuiet_verified (token : Text) (key : tokens.DecodingKey) (permission : AdminPermission)
    (wallClock clock : Nat) :
    (verified tokens issuer audience token key permission wallClock clock).isQuiet = true ∧
      ∀ principal now,
        verified tokens issuer audience token key permission wallClock clock =
          .limiting principal now → now ≤ clock := by
  unfold verified
  split
  · exact ⟨rfl, fun _ _ same => nomatch same⟩
  · split
    · exact ⟨rfl, fun _ _ same => nomatch same⟩
    · dsimp only
      split
      · refine ⟨rfl, ?_⟩
        intro principal now same
        cases same
        exact Nat.le_refl _
      · exact ⟨rfl, fun _ _ same => nomatch same⟩

theorem step_metered (action : AuthorizeAction) (prompt : Prompt lag s action)
    (metered : Metered limit lag s) :
    Metered limit lag (s.step tokens issuer audience action) := by
  cases action with
  | tick nanoseconds =>
      have later : s.clock ≤ s.clock + nanoseconds := Nat.le_add_right _ _
      refine ⟨metered.limits, ?_, ?_, metered.refused⟩
      · exact fun request member principal now limiting =>
          (metered.readings request member principal now limiting).trans later
      · intro mutation subject
        obtain ⟨gone, drifting, counted⟩ := metered.queues mutation subject
        exact ⟨gone, drifting.later later, counted⟩
  | arrive headers permission =>
      have same : ∀ mutation subject test,
          (s.step tokens issuer audience (.arrive headers permission)).countAccepted mutation
            subject test = s.countAccepted mutation subject test := by
        intro mutation subject test
        simp [OidcAdminAuthorizer.step, OidcAdminAuthorizer.countAccepted, Request.isCounted]
      refine ⟨metered.limits, ?_, ?_, ?_⟩
      · intro request member principal now limiting
        rcases List.mem_append.mp member with old | new
        · exact metered.readings request old principal now limiting
        · rw [List.mem_singleton.mp new] at limiting
          cases limiting
      · intro mutation subject
        obtain ⟨gone, drifting, counted⟩ := metered.queues mutation subject
        exact ⟨gone, drifting, fun test => (same _ _ test).trans (counted test)⟩
      · intro request member principal now seconds limited
        rcases List.mem_append.mp member with old | new
        · rw [same]
          exact metered.refused request old principal now seconds limited
        · rw [List.mem_singleton.mp new] at limited
          cases limited
  | readToken place =>
      simp only [OidcAdminAuthorizer.step, OidcAdminAuthorizer.readToken]
      split
      · rename_i request found
        split
        · rename_i arrived
          refine metered.advance found (by rw [arrived]; rfl) ?_ ?_
          · split <;> rfl
          · intro principal now same
            split at same <;> cases same
        · exact metered
      · exact metered
  | lookUp place =>
      simp only [OidcAdminAuthorizer.step, OidcAdminAuthorizer.lookUp]
      split
      · rename_i request found
        split
        · rename_i token keyId lookingUp
          refine metered.advance found (by rw [lookingUp]; rfl) ?_ ?_
          · split
            · exact (isQuiet_withKey _ _).1
            · rfl
          · intro principal now same
            split at same
            · exact absurd same ((isQuiet_withKey _ _).2 _ _)
            · cases same
        · exact metered
      · exact metered
  | fetch place response =>
      simp only [OidcAdminAuthorizer.step, OidcAdminAuthorizer.fetch]
      split
      · rename_i request found
        split
        · rename_i token keyId fetching
          refine metered.advance found (by rw [fetching]; rfl) ?_ ?_
          · split <;> rfl
          · intro principal now same
            split at same <;> cases same
        · exact metered
      · exact metered
  | store place =>
      simp only [OidcAdminAuthorizer.step, OidcAdminAuthorizer.store]
      split
      · rename_i request found
        split
        · rename_i token keyId keys now storing
          have cached : Metered limit lag { s with
              keys := some { value := keys, expiresAt := now + jwksCacheTtl }
              stored := s.stored ++ [(keys, now)] } :=
            ⟨metered.limits, metered.readings, metered.queues, metered.refused⟩
          refine cached.advance found (by rw [storing]; rfl) ?_ ?_
          · split
            · exact (isQuiet_withKey _ _).1
            · rfl
          · intro principal now same
            split at same
            · exact absurd same ((isQuiet_withKey _ _).2 _ _)
            · cases same
        · exact metered
      · exact metered
  | verify place wallClock =>
      simp only [OidcAdminAuthorizer.step, OidcAdminAuthorizer.verify]
      split
      · rename_i request found
        split
        · rename_i token key verifying
          have kind := @isQuiet_verified tokens issuer audience token key request.permission
            wallClock s.clock
          exact metered.advance found (by rw [verifying]; rfl) kind.1 kind.2
        · exact metered
      · exact metered
  | check place => exact metered.check prompt

/-- Over any interleaving in which no request waits for the limiter's lock longer than
the lag: of one subject and kind, no span shorter than the window by the lag holds the
readings of more accepted requests than the limit, and a request that is refused as
too many follows as many accepted ones within the window and the lag. Nothing but an
accepted request of that subject and kind takes a place. -/
theorem accepted_rate (tokens : Tokens) (issuer audience : Text)
    (requestsPerMinute mutationsPerMinute lag : Nat) (actions : List AuthorizeAction)
    (prompt : Guarded (fun s action => OidcAdminAuthorizer.step tokens issuer audience s action)
      (Prompt lag)
      (OidcAdminAuthorizer.new tokens.DecodingKey requestsPerMinute mutationsPerMinute) actions) :
    let s := OidcAdminAuthorizer.after tokens issuer audience requestsPerMinute mutationsPerMinute
      actions
    let limit := (SubjectRateLimiter.new requestsPerMinute mutationsPerMinute).limit
    (∀ mutation subject start,
      s.countAccepted mutation subject
        (fun instant => decide (start ≤ instant) &&
          decide (instant + lag < start + rateLimitWindow)) ≤ limit mutation) ∧
    ∀ request ∈ s.requests, ∀ principal now seconds,
      request.progress = .limited principal now seconds →
        limit request.permission.isMutation ≤ s.countAccepted request.permission.isMutation
          principal.subject fun instant => decide (now < instant + rateLimitWindow + lag) := by
  intro s limit
  have start : Metered limit lag (OidcAdminAuthorizer.new tokens.DecodingKey requestsPerMinute
      mutationsPerMinute) := by
    refine ⟨rfl, fun _ member => (nomatch member), ?_, fun _ member => (nomatch member)⟩
    exact fun mutation _ => ⟨[], drifting_nil (limit mutation) rateLimitWindow lag _, fun _ => rfl⟩
  have metered : Metered limit lag s :=
    run_invariant_of_guarded (fun _ action prompt metered => step_metered action prompt metered)
      _ actions prompt start
  refine ⟨?_, metered.refused⟩
  intro mutation subject start
  obtain ⟨gone, drifting, counted⟩ := metered.queues mutation subject
  rw [counted]
  exact drifting.narrow start

end Rates

section Keys

variable {tokens : Tokens} {issuer audience : Text} {s : OidcAdminAuthorizer tokens.DecodingKey}
  {stored later : List (List Jwk × Nat)} {request : Request tokens.DecodingKey} {place : Nat}

/-- The token of the request is for the key: it names a key of a set that was put into
the cache less than its lifetime before the request arrived, or since. -/
structure Keyed (tokens : Tokens) (stored : List (List Jwk × Nat)) (headers : HeaderMap)
    (arrivedAt : Nat) (token : Text) (key : tokens.DecodingKey) : Prop where
  bearer : bearerToken headers = .ok token
  listed : ∃ keyId jwk keys storedAt, tokens.decodeHeader token = some ⟨.rs256, some keyId⟩ ∧
    (keys, storedAt) ∈ stored ∧ findKey keys keyId = some jwk ∧ tokens.fromJwk jwk = some key ∧
    arrivedAt < storedAt + jwksCacheTtl

/-- The token says that the caller is the principal, who may do what is asked. -/
structure Vouched (tokens : Tokens) (issuer audience : Text) (stored : List (List Jwk × Nat))
    (headers : HeaderMap) (permission : AdminPermission) (arrivedAt : Nat)
    (principal : AdminPrincipal) : Prop where
  claimed : ∃ token key wallClock claims, Keyed tokens stored headers arrivedAt token key ∧
    tokens.decode token key .rs256 issuer audience wallClock = some claims ∧
    trim claims.sub ≠ [] ∧ principal = .new claims.sub claims.permissions
  permitted : principal.permits permission = true

/-- What a request has shown of itself at each point of its way. -/
def Justified (tokens : Tokens) (issuer audience : Text) (stored : List (List Jwk × Nat))
    (request : Request tokens.DecodingKey) : Prop :=
  match request.progress with
  | .arrived | .rejected _ => True
  | .lookingUp token keyId | .fetching token keyId =>
      bearerToken request.headers = .ok token ∧
        tokens.decodeHeader token = some ⟨.rs256, some keyId⟩
  | .storing token keyId _ now =>
      (bearerToken request.headers = .ok token ∧
        tokens.decodeHeader token = some ⟨.rs256, some keyId⟩) ∧ request.arrivedAt ≤ now
  | .verifying token key => Keyed tokens stored request.headers request.arrivedAt token key
  | .limiting principal _ | .accepted principal _ | .limited principal _ _ =>
      Vouched tokens issuer audience stored request.headers request.permission request.arrivedAt
        principal

structure Trusted (issuer audience : Text) (s : OidcAdminAuthorizer tokens.DecodingKey) :
    Prop where
  arrivals : ∀ request ∈ s.requests, request.arrivedAt ≤ s.clock
  cached : ∀ cached ∈ s.keys, ∃ storedAt, (cached.value, storedAt) ∈ s.stored ∧
    cached.expiresAt = storedAt + jwksCacheTtl
  justified : ∀ request ∈ s.requests, Justified tokens issuer audience s.stored request

theorem Keyed.mono {headers : HeaderMap} {arrivedAt : Nat} {token : Text}
    {key : tokens.DecodingKey} (keyed : Keyed tokens stored headers arrivedAt token key)
    (grown : ∀ entry ∈ stored, entry ∈ later) :
    Keyed tokens later headers arrivedAt token key := by
  obtain ⟨keyId, jwk, keys, storedAt, header, member, rest⟩ := keyed.listed
  exact ⟨keyed.bearer, keyId, jwk, keys, storedAt, header, grown _ member, rest⟩

theorem Vouched.mono {headers : HeaderMap} {permission : AdminPermission} {arrivedAt : Nat}
    {principal : AdminPrincipal}
    (vouched : Vouched tokens issuer audience stored headers permission arrivedAt principal)
    (grown : ∀ entry ∈ stored, entry ∈ later) :
    Vouched tokens issuer audience later headers permission arrivedAt principal := by
  obtain ⟨token, key, wallClock, claims, keyed, decoded⟩ := vouched.claimed
  exact ⟨⟨token, key, wallClock, claims, keyed.mono grown, decoded⟩, vouched.permitted⟩

theorem Justified.mono (justified : Justified tokens issuer audience stored request)
    (grown : ∀ entry ∈ stored, entry ∈ later) :
    Justified tokens issuer audience later request := by
  unfold Justified at justified ⊢
  cases kind : request.progress with
  | arrived | rejected => trivial
  | lookingUp | fetching | storing =>
      rw [kind] at justified
      exact justified
  | verifying token key =>
      rw [kind] at justified
      exact Keyed.mono justified grown
  | limiting | accepted | limited =>
      rw [kind] at justified
      exact Vouched.mono justified grown

theorem Trusted.advance (trusted : Trusted issuer audience s)
    (found : s.requests[place]? = some request) {progress : Progress tokens.DecodingKey}
    (justified : Justified tokens issuer audience s.stored
      { request with progress := progress }) :
    Trusted issuer audience (s.advance place request progress) := by
  have member := List.mem_of_getElem? found
  refine ⟨?_, trusted.cached, ?_⟩
  · intro other inRequests
    rcases List.mem_or_eq_of_mem_set inRequests with old | rfl
    · exact trusted.arrivals other old
    · exact trusted.arrivals request member
  · intro other inRequests
    rcases List.mem_or_eq_of_mem_set inRequests with old | rfl
    · exact trusted.justified other old
    · exact justified

theorem justified_withKey {token keyId : Text} {jwk : Jwk} {keys : List Jwk} {storedAt : Nat}
    (bearer : bearerToken request.headers = .ok token)
    (header : tokens.decodeHeader token = some ⟨.rs256, some keyId⟩)
    (member : (keys, storedAt) ∈ stored) (found : findKey keys keyId = some jwk)
    (recent : request.arrivedAt < storedAt + jwksCacheTtl) :
    Justified tokens issuer audience stored
      { request with progress := withKey tokens token jwk } := by
  unfold Justified withKey
  cases decoded : tokens.fromJwk jwk with
  | none => trivial
  | some key => exact ⟨bearer, keyId, jwk, keys, storedAt, header, member, found, decoded, recent⟩

theorem cachedKey_eq_some {keys : Option CachedJwks} {clock : Nat} {keyId : Text} {jwk : Jwk}
    (found : cachedKey keys clock keyId = some jwk) :
    ∃ cached ∈ keys, clock < cached.expiresAt ∧ findKey cached.value keyId = some jwk := by
  obtain ⟨cached, inCache, rest⟩ := Option.bind_eq_some_iff.mp found
  split at rest
  · rename_i fresh
    exact ⟨cached, inCache, fresh, rest⟩
  · cases rest

theorem readToken_eq_ok {headers : HeaderMap} {token keyId : Text}
    (read : readToken tokens headers = .ok (token, keyId)) :
    bearerToken headers = .ok token ∧
      tokens.decodeHeader token = some ⟨.rs256, some keyId⟩ := by
  obtain ⟨bearer, same, rest⟩ := bind_eq_ok.mp read
  split at rest
  · rename_i named header
    cases rest
    exact ⟨same, header⟩
  · cases rest

theorem justified_verified {token : Text} {key : tokens.DecodingKey}
    (keyed : Keyed tokens stored request.headers request.arrivedAt token key)
    (wallClock clock : Nat) :
    Justified tokens issuer audience stored { request with
      progress :=
        verified tokens issuer audience token key request.permission wallClock clock } := by
  unfold Justified verified
  cases decoded : tokens.decode token key .rs256 issuer audience wallClock with
  | none => trivial
  | some claims =>
      by_cases blank : (trim claims.sub).isEmpty = true
      · simp only [blank, if_true]
      · by_cases permitted : (AdminPrincipal.new claims.sub claims.permissions).permits
            request.permission = true
        · simp only [blank, permitted, if_true]
          refine ⟨⟨token, key, wallClock, claims, keyed, decoded, ?_, rfl⟩, permitted⟩
          intro empty
          rw [empty] at blank
          exact blank rfl
        · simp only [blank, permitted]
          trivial

theorem Trusted.arrivedAt (trusted : Trusted issuer audience s)
    (found : s.requests[place]? = some request) : request.arrivedAt ≤ s.clock :=
  trusted.arrivals request (List.mem_of_getElem? found)

/-- The progress of a request that is found is justified as it stands. -/
theorem Trusted.found (trusted : Trusted issuer audience s)
    (found : s.requests[place]? = some request) :
    Justified tokens issuer audience s.stored request :=
  trusted.justified request (List.mem_of_getElem? found)

theorem lookUp_trusted (trusted : Trusted issuer audience s) (place : Nat) :
    Trusted issuer audience (s.lookUp tokens place) := by
  unfold OidcAdminAuthorizer.lookUp
  split
  · rename_i request found
    split
    · rename_i token keyId lookingUp
      have shown := trusted.found found
      rw [Justified, lookingUp] at shown
      cases cachedNow : cachedKey s.keys s.clock keyId with
      | none => exact trusted.advance found shown
      | some jwk =>
          obtain ⟨cached, inCache, fresh, named⟩ := cachedKey_eq_some cachedNow
          obtain ⟨storedAt, member, expires⟩ := trusted.cached cached inCache
          have arrived := trusted.arrivedAt found
          exact trusted.advance found
            (justified_withKey shown.1 shown.2 member named (by omega))
    · exact trusted
  · exact trusted

theorem store_trusted (trusted : Trusted issuer audience s) (place : Nat) :
    Trusted issuer audience (s.store tokens place) := by
  unfold OidcAdminAuthorizer.store
  split
  · rename_i request found
    split
    · rename_i token keyId keys now storing
      have justified := trusted.found found
      rw [Justified, storing] at justified
      obtain ⟨shown, arrived⟩ := justified
      have added : (keys, now) ∈ s.stored ++ [(keys, now)] :=
        List.mem_append_right _ (List.mem_singleton.mpr rfl)
      have cached : Trusted issuer audience { s with
          keys := some { value := keys, expiresAt := now + jwksCacheTtl }
          stored := s.stored ++ [(keys, now)] } := by
        refine ⟨trusted.arrivals, ?_, ?_⟩
        · intro cached inCache
          cases inCache
          exact ⟨now, added, rfl⟩
        · exact fun other member => (trusted.justified other member).mono
            fun entry old => List.mem_append_left _ old
      cases named : findKey keys keyId with
      | none => exact cached.advance found trivial
      | some jwk =>
          have lifetime : 0 < jwksCacheTtl := by decide
          exact cached.advance found
            (justified_withKey shown.1 shown.2 added named (by omega))
    · exact trusted
  · exact trusted

theorem step_trusted (s : OidcAdminAuthorizer tokens.DecodingKey) (action : AuthorizeAction)
    (trusted : Trusted issuer audience s) :
    Trusted issuer audience (s.step tokens issuer audience action) := by
  cases action with
  | tick nanoseconds =>
      refine ⟨?_, trusted.cached, trusted.justified⟩
      exact fun request member => (trusted.arrivals request member).trans (Nat.le_add_right _ _)
  | arrive headers permission =>
      refine ⟨?_, trusted.cached, ?_⟩
      · intro request member
        rcases List.mem_append.mp member with old | new
        · exact trusted.arrivals request old
        · rw [List.mem_singleton.mp new]
          exact Nat.le_refl _
      · intro request member
        rcases List.mem_append.mp member with old | new
        · exact trusted.justified request old
        · rw [List.mem_singleton.mp new]
          trivial
  | readToken place =>
      simp only [OidcAdminAuthorizer.step, OidcAdminAuthorizer.readToken]
      split
      · rename_i request found
        split
        · cases read : readToken tokens request.headers with
          | error reason => exact trusted.advance found trivial
          | ok pair => exact trusted.advance found (readToken_eq_ok read)
        · exact trusted
      · exact trusted
  | lookUp place => exact lookUp_trusted trusted place
  | fetch place response =>
      simp only [OidcAdminAuthorizer.step, OidcAdminAuthorizer.fetch]
      split
      · rename_i request found
        split
        · rename_i token keyId fetching
          have shown := trusted.found found
          rw [Justified, fetching] at shown
          have arrived := trusted.arrivedAt found
          split
          · exact trusted.advance found ⟨shown, arrived⟩
          · exact trusted.advance found trivial
        · exact trusted
      · exact trusted
  | store place => exact store_trusted trusted place
  | verify place wallClock =>
      simp only [OidcAdminAuthorizer.step, OidcAdminAuthorizer.verify]
      split
      · rename_i request found
        split
        · rename_i token key verifying
          have shown := trusted.found found
          rw [Justified, verifying] at shown
          exact trusted.advance found (justified_verified shown wallClock s.clock)
        · exact trusted
      · exact trusted
  | check place =>
      simp only [OidcAdminAuthorizer.step, OidcAdminAuthorizer.check]
      split
      · rename_i request found
        split
        · rename_i principal now limiting
          have shown := trusted.found found
          rw [Justified, limiting] at shown
          have metered : Trusted issuer audience { s with
              rateLimiter := (s.rateLimiter.check
                ⟨principal.subject, request.permission.isMutation, now⟩).2 } :=
            ⟨trusted.arrivals, trusted.cached, trusted.justified⟩
          refine metered.advance found ?_
          split
          · exact shown
          · exact shown
          · trivial
        · exact trusted
      · exact trusted

theorem after_trusted (tokens : Tokens) (issuer audience : Text)
    (requestsPerMinute mutationsPerMinute : Nat) (actions : List AuthorizeAction) :
    Trusted issuer audience (OidcAdminAuthorizer.after tokens issuer audience requestsPerMinute
      mutationsPerMinute actions) := by
  refine run_invariant step_trusted _ actions ?_
  exact ⟨fun _ member => (nomatch member), fun _ member => (nomatch member),
    fun _ member => (nomatch member)⟩

theorem Trusted.accepted (trusted : Trusted issuer audience s) (member : request ∈ s.requests)
    {principal : AdminPrincipal} {now : Nat}
    (accepted : request.progress = .accepted principal now) :
    Vouched tokens issuer audience s.stored request.headers request.permission request.arrivedAt
      principal := by
  have justified := trusted.justified request member
  rw [Justified, accepted] at justified
  exact justified

theorem Trusted.limited (trusted : Trusted issuer audience s) (member : request ∈ s.requests)
    {principal : AdminPrincipal} {now seconds : Nat}
    (limited : request.progress = .limited principal now seconds) :
    Vouched tokens issuer audience s.stored request.headers request.permission request.arrivedAt
      principal := by
  have justified := trusted.justified request member
  rw [Justified, limited] at justified
  exact justified

/-- Over any interleaving, whoever is accepted, or told to come back later, has shown a
token that was verified with a key the provider published, from a set that was put into
the cache at most its lifetime before the request arrived; and the token permits what
is asked. -/
theorem accepted_vouched (tokens : Tokens) (issuer audience : Text)
    (requestsPerMinute mutationsPerMinute : Nat) (actions : List AuthorizeAction) :
    let s := OidcAdminAuthorizer.after tokens issuer audience requestsPerMinute mutationsPerMinute
      actions
    ∀ request ∈ s.requests, ∀ principal now seconds,
      request.progress = .accepted principal now ∨
          request.progress = .limited principal now seconds →
        Vouched tokens issuer audience s.stored request.headers request.permission
          request.arrivedAt principal := by
  intro s request member principal now seconds answered
  have trusted := after_trusted tokens issuer audience requestsPerMinute mutationsPerMinute actions
  rcases answered with accepted | limited
  · exact trusted.accepted member accepted
  · exact trusted.limited member limited

/-- A key that the provider has withdrawn: once no set with it is fetched for the cache any
more, its tokens are refused to whoever arrives a cache lifetime later. -/
theorem withdrawn_refused (tokens : Tokens) (issuer audience : Text)
    (requestsPerMinute mutationsPerMinute : Nat) (actions : List AuthorizeAction)
    (keyId : Text) (withdrawnAt : Nat) :
    let s := OidcAdminAuthorizer.after tokens issuer audience requestsPerMinute mutationsPerMinute
      actions
    (∀ entry ∈ s.stored, withdrawnAt ≤ entry.2 → findKey entry.1 keyId = none) →
    ∀ request ∈ s.requests, withdrawnAt + jwksCacheTtl ≤ request.arrivedAt →
      ∀ token, readToken tokens request.headers = .ok (token, keyId) →
        ∀ principal, request.progress.answer ≠ some (.ok principal) := by
  intro s withdrawn request member late token read principal answered
  obtain ⟨now, accepted⟩ : ∃ now, request.progress = .accepted principal now := by
    cases kind : request.progress <;> rw [kind] at answered <;> cases answered
    exact ⟨_, rfl⟩
  have trusted := after_trusted tokens issuer audience requestsPerMinute mutationsPerMinute actions
  have vouched := trusted.accepted member accepted
  obtain ⟨shown, key, wallClock, claims, keyed, _⟩ := vouched.claimed
  obtain ⟨named, jwk, keys, storedAt, header, inCache, found, _, recent⟩ := keyed.listed
  obtain ⟨bearer, sameHeader⟩ := readToken_eq_ok read
  have sameToken : shown = token := by
    rw [keyed.bearer] at bearer
    exact Except.ok.inj bearer
  rw [sameToken, sameHeader] at header
  cases header
  have gone := withdrawn _ inCache (by omega)
  rw [gone] at found
  cases found

end Keys

section Examples

/-- Tokens whose text before the first dot names the key and after it the caller, where
the key for `a` is the one with the material `a`; nobody but the operator may operate. -/
def dottedTokens : Tokens where
  DecodingKey := Text
  decodeHeader token := (splitOnce ".".toList token).map fun parts => ⟨.rs256, some parts.1⟩
  fromJwk key := some key.material
  decode token key _ _ _ _ := do
    let (keyId, sub) ← splitOnce ".".toList token
    if key = keyId then
      some {
        sub := sub
        permissions := [if sub = "operator".toList then "admin:operate".toList
          else "admin:read".toList] }
    else none

def bearing (token : Text) : HeaderMap :=
  [("authorization".toList, encodeUtf8 ("Bearer ".toList ++ token))]

/-- Two requests of one viewer, of which the second overtakes the first at the limiter;
a forged token is refused before it gets there. -/
def overtakingRequests : List AuthorizeAction :=
  [.arrive (bearing "a.viewer".toList) .view, .arrive (bearing "a.viewer".toList) .view,
    .arrive (bearing "b.operator".toList) .operate, .readToken 0, .readToken 1, .readToken 2,
    .lookUp 0, .fetch 0 (some [⟨some "a".toList, "a".toList⟩]), .store 0, .lookUp 1, .lookUp 2,
    .fetch 2 (some [⟨some "a".toList, "a".toList⟩]), .store 2, .verify 0 0,
    .tick (5 * nanosPerSecond), .verify 1 0, .check 1, .check 0]

def overtaken : OidcAdminAuthorizer Text :=
  OidcAdminAuthorizer.after dottedTokens "issuer".toList "audience".toList 1 1 overtakingRequests

/-- The first one has waited for as long as the lag allows. -/
theorem overtaken_rate :
    overtaken.countAccepted false "viewer".toList (fun instant =>
      decide (0 ≤ instant) && decide (instant + 5 * nanosPerSecond < 0 + rateLimitWindow)) ≤ 1 := by
  have rate := accepted_rate dottedTokens "issuer".toList "audience".toList 1 1
    (5 * nanosPerSecond) overtakingRequests (by decide +kernel)
  exact rate.1 false "viewer".toList 0

theorem overtaken_vouched :
    Vouched dottedTokens "issuer".toList "audience".toList overtaken.stored
      (bearing "a.viewer".toList) .view 0 (.new "viewer".toList ["admin:read".toList]) := by
  have second : overtaken.requests[1]? = some ⟨bearing "a.viewer".toList, .view, 0,
      .accepted (.new "viewer".toList ["admin:read".toList]) (5 * nanosPerSecond)⟩ := by
    decide +kernel
  exact accepted_vouched dottedTokens "issuer".toList "audience".toList 1 1 overtakingRequests _
    (List.mem_of_getElem? second) _ _ 0 (Or.inl rfl)

/-- The provider publishes another key, and the cached set has expired when the viewer
comes again. -/
def afterWithdrawal : List AuthorizeAction :=
  overtakingRequests ++ [.tick jwksCacheTtl, .arrive (bearing "a.viewer".toList) .view,
    .readToken 3, .lookUp 3, .fetch 3 (some [⟨some "b".toList, "b".toList⟩]), .store 3]

def withdrawn : OidcAdminAuthorizer Text :=
  OidcAdminAuthorizer.after dottedTokens "issuer".toList "audience".toList 1 1 afterWithdrawal

theorem afterWithdrawal_refused :
    ∃ request ∈ withdrawn.requests, request.arrivedAt = 305 * nanosPerSecond ∧
      ∀ principal, request.progress.answer ≠ some (.ok principal) := by
  have last : withdrawn.requests[3]? = some ⟨bearing "a.viewer".toList, .view,
      305 * nanosPerSecond, .rejected .unauthorized⟩ := by
    decide +kernel
  have gone : ∀ entry ∈ withdrawn.stored, 1 ≤ entry.2 → findKey entry.1 "a".toList = none := by
    decide +kernel
  have member := List.mem_of_getElem? last
  exact ⟨_, member, rfl, withdrawn_refused dottedTokens "issuer".toList "audience".toList 1 1
    afterWithdrawal "a".toList 1 gone _ member (by decide) "a.viewer".toList (by decide +kernel)⟩

end Examples

end TechAtlas.Admin
