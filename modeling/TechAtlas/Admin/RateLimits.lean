import TechAtlas.Library.Text
import TechAtlas.Library.Window

set_option autoImplicit false

/- The rate limits of the admin API: for each subject and kind of call a queue of
the instants at which calls were accepted, pruned from its front when the next call
arrives. -/
namespace TechAtlas.Admin

open Library

section Limiter

/-- Instants and durations are in nanoseconds. -/
def nanosPerSecond : Nat := 1000000000

def rateLimitWindow : Nat := 60 * nanosPerSecond

inductive AdminAuthorizationError
  | unauthorized
  | forbidden
  | rateLimited (retryAfterSeconds : Nat)
  | unavailable
  deriving DecidableEq, Repr

/-- `HashMap<String, VecDeque<Instant>>`, with no instants where there is no entry. -/
structure SubjectRateLimiter where
  readsPerMinute : Nat
  mutationsPerMinute : Nat
  acceptedAt : Text → List Nat

def SubjectRateLimiter.new (readsPerMinute mutationsPerMinute : Nat) : SubjectRateLimiter where
  readsPerMinute := readsPerMinute
  mutationsPerMinute := mutationsPerMinute
  acceptedAt _ := []

/-- A call of `check`, with the instant at which it is made. -/
structure Call where
  subject : Text
  mutation : Bool
  now : Nat
  deriving DecidableEq, Repr

def entryKey (mutation : Bool) (subject : Text) : Text :=
  (if mutation then "mutation".toList else "read".toList) ++ ":".toList ++ subject

def SubjectRateLimiter.limit (limiter : SubjectRateLimiter) (mutation : Bool) : Nat :=
  if mutation then limiter.mutationsPerMinute else limiter.readsPerMinute

def secondsCeil (duration : Nat) : Nat :=
  max (duration / nanosPerSecond + if 0 < duration % nanosPerSecond then 1 else 0) 1

/-- The seconds until the oldest instant has left the window. -/
def retryAfter (accepted : List Nat) (now : Nat) : Nat :=
  match accepted.head? with
  | none => 1
  | some oldest => secondsCeil (oldest + rateLimitWindow - now)

def SubjectRateLimiter.store (limiter : SubjectRateLimiter) (key : Text) (accepted : List Nat) :
    SubjectRateLimiter :=
  { limiter with acceptedAt := Function.update limiter.acceptedAt key accepted }

def SubjectRateLimiter.check (limiter : SubjectRateLimiter) (call : Call) :
    Except AdminAuthorizationError Unit × SubjectRateLimiter :=
  let key := entryKey call.mutation call.subject
  let accepted := (limiter.acceptedAt key).dropWhile fun instant =>
    decide (rateLimitWindow ≤ call.now - instant)
  if limiter.limit call.mutation ≤ accepted.length then
    (.error (.rateLimited (retryAfter accepted call.now)), limiter.store key accepted)
  else (.ok (), limiter.store key (accepted ++ [call.now]))

/-- The limiter behind a sequence of calls, one at a time under its lock. -/
def SubjectRateLimiter.after (limiter : SubjectRateLimiter) (calls : List Call) :
    SubjectRateLimiter :=
  calls.foldl (fun limiter call => (limiter.check call).2) limiter

def SubjectRateLimiter.outcomes (limiter : SubjectRateLimiter) :
    List Call → List (Call × Except AdminAuthorizationError Unit)
  | [] => []
  | call :: rest => (call, (limiter.check call).1) :: (limiter.check call).2.outcomes rest

def isAccepted (outcome : Call × Except AdminAuthorizationError Unit) : Bool :=
  match outcome.2 with
  | .ok _ => true
  | .error _ => false

def SubjectRateLimiter.accepted (limiter : SubjectRateLimiter) (calls : List Call) : List Call :=
  ((limiter.outcomes calls).filter isAccepted).map Prod.fst

end Limiter

section Specification

def Call.isLike (call : Call) (mutation : Bool) (subject : Text) : Bool :=
  call.mutation == mutation && call.subject == subject

/-- The accepted calls of a kind and subject whose instants satisfy the test. -/
def SubjectRateLimiter.countAccepted (limiter : SubjectRateLimiter) (calls : List Call)
    (mutation : Bool) (subject : Text) (test : Nat → Bool) : Nat :=
  ((limiter.accepted calls).filter fun call => call.isLike mutation subject && test call.now).length

/-- An exact sliding window over a sequence of calls. -/
structure IsExactWindow (limiter : SubjectRateLimiter) (calls : List Call) : Prop where
  decided : ∀ before call rest, calls = before ++ call :: rest →
    (isAccepted (call, ((limiter.after before).check call).1) = true ↔
      limiter.countAccepted before call.mutation call.subject
        (fun instant => decide (call.now - instant < rateLimitWindow)) <
          limiter.limit call.mutation)
  bounded : ∀ mutation subject start,
    limiter.countAccepted calls mutation subject
        (fun instant => decide (start ≤ instant) && decide (instant < start + rateLimitWindow)) ≤
          limiter.limit mutation ∧
      limiter.countAccepted calls mutation subject
        (fun instant => decide (start < instant) && decide (instant ≤ start + rateLimitWindow)) ≤
          limiter.limit mutation
  refused : ∀ before call rest, calls = before ++ call :: rest →
    isAccepted (call, ((limiter.after before).check call).1) = false →
      (limiter.after (before ++ [call])).outcomes rest = (limiter.after before).outcomes rest
  others : ∀ mutation subject,
    (limiter.outcomes calls).filter (fun outcome => outcome.1.isLike mutation subject) =
      limiter.outcomes (calls.filter fun call => call.isLike mutation subject)
  retried : ∀ before call between again rest seconds,
    calls = before ++ call :: (between ++ again :: rest) →
    ((limiter.after before).check call).1 = .error (.rateLimited seconds) →
    again.mutation = call.mutation → again.subject = call.subject →
    call.now + seconds * nanosPerSecond ≤ again.now →
    (∀ other ∈ (limiter.after (before ++ [call])).accepted between,
      other.isLike call.mutation call.subject = false) →
    isAccepted (again, ((limiter.after (before ++ call :: between)).check again).1) = true

end Specification

section Log

def Call.event (call : Call) : Event (Bool × Text) := ⟨(call.mutation, call.subject), call.now⟩

def SubjectRateLimiter.limits (limiter : SubjectRateLimiter) (key : Bool × Text) : Nat :=
  limiter.limit key.1

/-- What the log of all accepted calls says of a call. -/
def verdict (limit : Bool × Text → Nat) (log : List (Event (Bool × Text))) (call : Call) :
    Except AdminAuthorizationError Unit :=
  if admits limit rateLimitWindow log call.event then .ok ()
  else .error (.rateLimited (retryAfter (recent rateLimitWindow log call.event) call.now))

theorem entryKey_injective {mutation mutation' : Bool} {subject subject' : Text}
    (same : entryKey mutation subject = entryKey mutation' subject') :
    mutation = mutation' ∧ subject = subject' := by
  cases mutation <;> cases mutation'
  · simpa [entryKey] using same
  · simp [entryKey] at same
  · simp [entryKey] at same
  · simpa [entryKey] using same

/-- The queues hold what the log holds of the instants that count from `instant` on. -/
structure Tracks (limiter : SubjectRateLimiter) (log : List (Event (Bool × Text)))
    (instant : Nat) : Prop where
  sorted : ∀ key, (limiter.acceptedAt key).Pairwise (· ≤ ·)
  past : ∀ key, ∀ time ∈ limiter.acceptedAt key, time ≤ instant
  kept : ∀ mutation subject now, instant ≤ now →
    (limiter.acceptedAt (entryKey mutation subject)).filter
      (fun time => decide (now < time + rateLimitWindow)) =
        recent rateLimitWindow log ⟨(mutation, subject), now⟩

theorem tracks_new (readsPerMinute mutationsPerMinute instant : Nat) :
    Tracks (.new readsPerMinute mutationsPerMinute) [] instant := by
  constructor
  · intro key
    exact List.Pairwise.nil
  · intro key time member
    cases member
  · intro mutation subject now _
    rfl

variable {limiter : SubjectRateLimiter} {log : List (Event (Bool × Text))} {instant : Nat}
  {call : Call}

/-- Pruning the front leaves the instants that count. -/
theorem Tracks.pruned (tracks : Tracks limiter log instant) (later : instant ≤ call.now) :
    (limiter.acceptedAt (entryKey call.mutation call.subject)).dropWhile
      (fun time => decide (rateLimitWindow ≤ call.now - time)) =
        recent rateLimitWindow log call.event := by
  have expires : ∀ a b : Nat, a ≤ b → decide (rateLimitWindow ≤ call.now - b) = true →
      decide (rateLimitWindow ≤ call.now - a) = true := by
    intro a b before
    simp only [decide_eq_true_eq]
    omega
  have window : 0 < rateLimitWindow := by decide
  have same := tracks.kept call.mutation call.subject call.now later
  rw [dropWhile_eq_filter (tracks.sorted _) expires]
  change _ = recent rateLimitWindow log ⟨(call.mutation, call.subject), call.now⟩
  rw [← same]
  congr 1
  funext time
  rw [Bool.eq_iff_iff]
  simp only [Bool.not_eq_true', decide_eq_false_iff_not, decide_eq_true_eq]
  omega

theorem Tracks.check_fst (tracks : Tracks limiter log instant) (later : instant ≤ call.now) :
    (limiter.check call).1 = verdict limiter.limits log call := by
  unfold SubjectRateLimiter.check verdict
  dsimp only
  rw [tracks.pruned later]
  by_cases full : limiter.limit call.mutation ≤ (recent rateLimitWindow log call.event).length
  · have refused : ¬admits limiter.limits rateLimitWindow log call.event = true := by
      unfold admits
      rw [decide_eq_true_eq]
      exact not_lt.mpr full
    rw [if_pos full, if_neg refused]
  · have admitted : admits limiter.limits rateLimitWindow log call.event = true := by
      unfold admits
      rw [decide_eq_true_eq]
      exact not_le.mp full
    rw [if_neg full, if_pos admitted]

theorem check_limits (limiter : SubjectRateLimiter) (call : Call) :
    (limiter.check call).2.limits = limiter.limits := by
  unfold SubjectRateLimiter.check
  dsimp only
  split <;> rfl

/-- The queue of the call's key is what counts at its instant, with the instant
itself if the call is admitted; the other queues stay. -/
theorem Tracks.check_acceptedAt (tracks : Tracks limiter log instant)
    (later : instant ≤ call.now) :
    (limiter.check call).2.acceptedAt = Function.update limiter.acceptedAt
      (entryKey call.mutation call.subject)
      (recent rateLimitWindow log call.event ++
        if admits limiter.limits rateLimitWindow log call.event then [call.now] else []) := by
  unfold SubjectRateLimiter.check
  dsimp only
  rw [tracks.pruned later]
  by_cases full : limiter.limit call.mutation ≤ (recent rateLimitWindow log call.event).length
  · have refused : admits limiter.limits rateLimitWindow log call.event = false := by
      unfold admits
      rw [decide_eq_false_iff_not]
      exact not_lt.mpr full
    rw [if_pos full, refused]
    simp [SubjectRateLimiter.store]
  · have admitted : admits limiter.limits rateLimitWindow log call.event = true := by
      unfold admits
      rw [decide_eq_true_eq]
      exact not_le.mp full
    rw [if_neg full, admitted]
    simp [SubjectRateLimiter.store]

theorem Tracks.mem_recent (tracks : Tracks limiter log instant) (later : instant ≤ call.now)
    {time : Nat} (member : time ∈ recent rateLimitWindow log call.event) :
    time ∈ limiter.acceptedAt (entryKey call.mutation call.subject) := by
  have same := tracks.kept call.mutation call.subject call.now later
  change _ = recent rateLimitWindow log call.event at same
  rw [← same] at member
  exact (List.mem_filter.mp member).1

theorem Tracks.sorted_recent (tracks : Tracks limiter log instant) (later : instant ≤ call.now) :
    (recent rateLimitWindow log call.event).Pairwise (· ≤ ·) := by
  have same := tracks.kept call.mutation call.subject call.now later
  change _ = recent rateLimitWindow log call.event at same
  rw [← same]
  exact (tracks.sorted _).filter _

/-- What counts at a later instant is what still counts of what counts now. -/
theorem Tracks.recent_later (tracks : Tracks limiter log instant) (later : instant ≤ call.now)
    {now : Nat} (next : call.now ≤ now) :
    (recent rateLimitWindow log call.event).filter
      (fun time => decide (now < time + rateLimitWindow)) =
        recent rateLimitWindow log ⟨(call.mutation, call.subject), now⟩ := by
  have before := tracks.kept call.mutation call.subject call.now later
  change _ = recent rateLimitWindow log call.event at before
  rw [← before, ← tracks.kept call.mutation call.subject now (le_trans later next),
    List.filter_filter]
  congr 1
  funext time
  rw [Bool.eq_iff_iff, Bool.and_eq_true, decide_eq_true_eq, decide_eq_true_eq]
  omega

/-- A call takes both sides one step on. -/
theorem Tracks.check (tracks : Tracks limiter log instant) (later : instant ≤ call.now) :
    Tracks (limiter.check call).2 (logged limiter.limits rateLimitWindow log call.event)
      call.now := by
  have queues := tracks.check_acceptedAt later
  have recentPast : ∀ time ∈ recent rateLimitWindow log call.event, time ≤ call.now := by
    intro time member
    exact le_trans (tracks.past _ time (tracks.mem_recent later member)) later
  constructor
  · intro key
    rw [queues]
    by_cases own : key = entryKey call.mutation call.subject
    · rw [own, Function.update_self, List.pairwise_append]
      refine ⟨tracks.sorted_recent later, ?_, ?_⟩
      · split
        · exact List.pairwise_singleton _ _
        · exact List.Pairwise.nil
      · intro time member other isNow
        split at isNow
        · rw [List.mem_singleton.mp isNow]
          exact recentPast time member
        · cases isNow
    · rw [Function.update_of_ne own]
      exact tracks.sorted key
  · intro key time member
    rw [queues] at member
    by_cases own : key = entryKey call.mutation call.subject
    · rw [own, Function.update_self, List.mem_append] at member
      rcases member with old | new
      · exact recentPast time old
      · split at new
        · exact le_of_eq (List.mem_singleton.mp new)
        · cases new
    · rw [Function.update_of_ne own] at member
      exact le_trans (tracks.past key time member) later
  · intro mutation subject now next
    rw [queues]
    by_cases own : mutation = call.mutation ∧ subject = call.subject
    · rw [own.1, own.2, Function.update_self, List.filter_append, tracks.recent_later later next]
      unfold logged
      by_cases admitted : admits limiter.limits rateLimitWindow log call.event = true
      · rw [if_pos admitted, if_pos admitted, recent_append]
        congr 1
        by_cases counts : now < call.now + rateLimitWindow
        · simp [Call.event, counts]
        · simp [Call.event, counts]
      · rw [if_neg admitted, if_neg admitted]
        simp
    · have other : entryKey mutation subject ≠ entryKey call.mutation call.subject :=
        fun same => own (entryKey_injective same)
      rw [Function.update_of_ne other, tracks.kept mutation subject now (le_trans later next)]
      unfold logged
      split
      · rw [recent_append, if_neg, List.append_nil]
        rintro ⟨same, _⟩
        have parts : call.mutation = mutation ∧ call.subject = subject := by
          simpa [Call.event] using same
        exact own ⟨parts.1.symm, parts.2.symm⟩
      · rfl

end Log

section Runs

def verdicts (limit : Bool × Text → Nat) (log : List (Event (Bool × Text))) :
    List Call → List (Call × Except AdminAuthorizationError Unit)
  | [] => []
  | call :: rest => (call, verdict limit log call) ::
      verdicts limit (logged limit rateLimitWindow log call.event) rest

theorem isAccepted_verdict (limit : Bool × Text → Nat) (log : List (Event (Bool × Text)))
    (call : Call) :
    isAccepted (call, verdict limit log call) = admits limit rateLimitWindow log call.event := by
  unfold verdict
  cases admits limit rateLimitWindow log call.event <;> rfl

theorem Tracks.mono {limiter : SubjectRateLimiter} {log : List (Event (Bool × Text))}
    {instant later : Nat} (tracks : Tracks limiter log instant) (next : instant ≤ later) :
    Tracks limiter log later := by
  constructor
  · exact tracks.sorted
  · intro key time member
    exact le_trans (tracks.past key time member) next
  · intro mutation subject now after
    exact tracks.kept mutation subject now (le_trans next after)

theorem after_limits (limiter : SubjectRateLimiter) (calls : List Call) :
    (limiter.after calls).limits = limiter.limits := by
  induction calls generalizing limiter with
  | nil => rfl
  | cons call rest ih => exact (ih _).trans (check_limits limiter call)

theorem after_append (limiter : SubjectRateLimiter) (first second : List Call) :
    limiter.after (first ++ second) = (limiter.after first).after second := List.foldl_append

/-- The run of the limiter is the run of the log: by induction on the calls, with
the step of both for the first one. -/
theorem Tracks.run {limiter : SubjectRateLimiter} {log : List (Event (Bool × Text))}
    {instant : Nat} (tracks : Tracks limiter log instant) {calls : List Call}
    (later : ∀ call ∈ calls, instant ≤ call.now)
    (sorted : calls.Pairwise fun first second => first.now ≤ second.now) :
    limiter.outcomes calls = verdicts limiter.limits log calls ∧
      ∀ last, instant ≤ last → (∀ call ∈ calls, call.now ≤ last) →
        Tracks (limiter.after calls)
          (logAfter limiter.limits rateLimitWindow log (calls.map Call.event)) last := by
  induction calls generalizing limiter log instant with
  | nil => exact ⟨rfl, fun last next _ => tracks.mono next⟩
  | cons call rest ih =>
      rw [List.pairwise_cons] at sorted
      have first := later call List.mem_cons_self
      obtain ⟨outcomes, state⟩ := ih (tracks.check first) sorted.1 sorted.2
      rw [check_limits] at outcomes state
      constructor
      · rw [SubjectRateLimiter.outcomes, outcomes, tracks.check_fst first, verdicts]
      · intro last next past
        exact state last (past call List.mem_cons_self)
          fun other member => past other (List.mem_cons_of_mem call member)

theorem logAfter_verdicts (limit : Bool × Text → Nat) (log : List (Event (Bool × Text)))
    (calls : List Call) :
    logAfter limit rateLimitWindow log (calls.map Call.event) =
      log ++ (((verdicts limit log calls).filter isAccepted).map Prod.fst).map Call.event := by
  induction calls generalizing log with
  | nil => simp [verdicts, logAfter]
  | cons call rest ih =>
      rw [List.map_cons, logAfter_cons, ih, verdicts]
      have own := isAccepted_verdict limit log call
      unfold logged
      by_cases admitted : admits limit rateLimitWindow log call.event = true
      · rw [admitted] at own
        rw [if_pos admitted, List.filter_cons_of_pos own]
        simp
      · have refused : admits limit rateLimitWindow log call.event = false := by
          simpa using admitted
        rw [refused] at own
        rw [if_neg admitted, List.filter_cons_of_neg (by simp [own])]

theorem verdicts_like (limit : Bool × Text → Nat) (log : List (Event (Bool × Text)))
    (calls : List Call) (mutation : Bool) (subject : Text) :
    (verdicts limit log calls).filter (fun outcome => outcome.1.isLike mutation subject) =
      verdicts limit (ofKey (mutation, subject) log)
        (calls.filter fun call => call.isLike mutation subject) := by
  induction calls generalizing log with
  | nil => rfl
  | cons call rest ih =>
      rw [verdicts]
      have next := ofKey_logged limit rateLimitWindow (mutation, subject) log call.event
      by_cases own : call.event.key = (mutation, subject)
      · have like : call.isLike mutation subject = true := by
          simpa [Call.isLike, Call.event] using own
        have same : verdict limit (ofKey (mutation, subject) log) call = verdict limit log call := by
          unfold verdict
          rw [← own, admits_ofKey, recent_ofKey]
        rw [if_pos own] at next
        simp only [List.filter_cons, like, ↓reduceIte]
        rw [ih, next, verdicts, same]
      · have unlike : call.isLike mutation subject = false := by
          apply Bool.eq_false_iff.mpr
          intro like
          exact own (by simpa [Call.isLike, Call.event] using like)
        rw [if_neg own] at next
        simp only [List.filter_cons, unlike, Bool.false_eq_true, ↓reduceIte]
        rw [ih, next]

end Runs

section Exactness

variable {readsPerMinute mutationsPerMinute : Nat} {calls : List Call}

/-- The log of a run of a new limiter. -/
def runLog (limiter : SubjectRateLimiter) (calls : List Call) : List (Event (Bool × Text)) :=
  logAfter limiter.limits rateLimitWindow [] (calls.map Call.event)

theorem runLog_eq (sorted : calls.Pairwise fun first second => first.now ≤ second.now) :
    runLog (.new readsPerMinute mutationsPerMinute) calls =
      ((SubjectRateLimiter.new readsPerMinute mutationsPerMinute).accepted calls).map
        Call.event := by
  have run := (tracks_new readsPerMinute mutationsPerMinute 0).run
    (fun _ _ => Nat.zero_le _) sorted
  unfold runLog SubjectRateLimiter.accepted
  rw [logAfter_verdicts, run.1, List.nil_append]

theorem countAccepted_eq (sorted : calls.Pairwise fun first second => first.now ≤ second.now)
    (mutation : Bool) (subject : Text) (test : Nat → Bool) :
    (SubjectRateLimiter.new readsPerMinute mutationsPerMinute).countAccepted calls mutation subject
      test =
      countIn (runLog (.new readsPerMinute mutationsPerMinute) calls) (mutation, subject) test := by
  unfold SubjectRateLimiter.countAccepted countIn
  rw [runLog_eq sorted, List.filter_map, List.length_map]
  congr 2
  funext call
  rw [Bool.eq_iff_iff]
  simp [Call.isLike, Call.event]

/-- At a call of the sequence the limiter stands where the log of the calls before
it stands. -/
theorem tracks_before (sorted : calls.Pairwise fun first second => first.now ≤ second.now)
    {before rest : List Call} {call : Call} (split : calls = before ++ call :: rest) :
    Tracks ((SubjectRateLimiter.new readsPerMinute mutationsPerMinute).after before)
      (runLog (.new readsPerMinute mutationsPerMinute) before) call.now := by
  rw [split, List.pairwise_append] at sorted
  have run := (tracks_new readsPerMinute mutationsPerMinute 0).run
    (fun _ _ => Nat.zero_le _) sorted.1
  exact run.2 call.now (Nat.zero_le _)
    fun other member => sorted.2.2 other member call List.mem_cons_self

/-- A call is accepted when the log admits it. -/
theorem isAccepted_check (sorted : calls.Pairwise fun first second => first.now ≤ second.now)
    {before rest : List Call} {call : Call} (split : calls = before ++ call :: rest) :
    isAccepted (call, (((SubjectRateLimiter.new readsPerMinute mutationsPerMinute).after
      before).check call).1) =
      admits (SubjectRateLimiter.new readsPerMinute mutationsPerMinute).limits rateLimitWindow
        (runLog (.new readsPerMinute mutationsPerMinute) before) call.event := by
  rw [(tracks_before sorted split).check_fst (le_refl _), isAccepted_verdict, after_limits]

theorem countIn_recent (log : List (Event (Bool × Text))) (call : Call) :
    countIn log (call.mutation, call.subject)
      (fun instant => decide (call.now - instant < rateLimitWindow)) =
        (recent rateLimitWindow log call.event).length := by
  have window : 0 < rateLimitWindow := by decide
  unfold countIn recent
  rw [List.length_map]
  congr 2
  funext past
  rw [Bool.eq_iff_iff, Bool.and_eq_true, Bool.and_eq_true]
  have same : call.now - past.time < rateLimitWindow ↔ call.now < past.time + rateLimitWindow := by
    omega
  simp only [decide_eq_true_eq, same]
  rfl

theorem countAccepted_le (sorted : calls.Pairwise fun first second => first.now ≤ second.now)
    (mutation : Bool) (subject : Text) {test : Nat → Bool}
    (narrow : ∀ a b, test a = true → test b = true → b < a + rateLimitWindow) :
    (SubjectRateLimiter.new readsPerMinute mutationsPerMinute).countAccepted calls mutation subject
      test ≤ (SubjectRateLimiter.new readsPerMinute mutationsPerMinute).limit mutation := by
  rw [countAccepted_eq sorted]
  exact countIn_logAfter narrow (Nat.zero_le _) _

/-- A refused call prunes its queue and changes nothing else: the log is the same. -/
theorem tracks_refused (sorted : calls.Pairwise fun first second => first.now ≤ second.now)
    {before rest : List Call} {call : Call} (split : calls = before ++ call :: rest)
    (refused : isAccepted (call, (((SubjectRateLimiter.new readsPerMinute mutationsPerMinute).after
      before).check call).1) = false) :
    Tracks ((SubjectRateLimiter.new readsPerMinute mutationsPerMinute).after (before ++ [call]))
      (runLog (.new readsPerMinute mutationsPerMinute) before) call.now := by
  have tracks : Tracks ((SubjectRateLimiter.new readsPerMinute mutationsPerMinute).after before)
      (runLog (.new readsPerMinute mutationsPerMinute) before) call.now :=
    tracks_before sorted split
  rw [isAccepted_check sorted split] at refused
  have next := tracks.check (le_refl _)
  rw [after_limits] at next
  unfold logged at next
  rw [refused, if_neg Bool.false_ne_true] at next
  rw [after_append]
  exact next

theorem outcomes_refused (sorted : calls.Pairwise fun first second => first.now ≤ second.now)
    {before rest : List Call} {call : Call} (split : calls = before ++ call :: rest)
    (refused : isAccepted (call, (((SubjectRateLimiter.new readsPerMinute mutationsPerMinute).after
      before).check call).1) = false) :
    ((SubjectRateLimiter.new readsPerMinute mutationsPerMinute).after
      (before ++ [call])).outcomes rest =
      ((SubjectRateLimiter.new readsPerMinute mutationsPerMinute).after before).outcomes rest := by
  have tracks := @tracks_before readsPerMinute mutationsPerMinute calls sorted before rest call split
  have next := tracks_refused sorted split refused
  rw [split, List.pairwise_append, List.pairwise_cons] at sorted
  have pruned := (next.run sorted.2.1.1 sorted.2.1.2).1
  have whole := (tracks.run sorted.2.1.1 sorted.2.1.2).1
  rw [after_limits] at pruned whole
  rw [pruned, whole]

/-- With nothing of its key accepted behind a refused call, the log of the key stays. -/
theorem ofKey_runLog_refused
    (sorted : calls.Pairwise fun first second => first.now ≤ second.now)
    {before between rest : List Call} {call : Call}
    (split : calls = before ++ call :: (between ++ rest))
    (refused : isAccepted (call, (((SubjectRateLimiter.new readsPerMinute mutationsPerMinute).after
      before).check call).1) = false)
    (silent : ∀ other ∈ ((SubjectRateLimiter.new readsPerMinute mutationsPerMinute).after
      (before ++ [call])).accepted between,
        other.isLike call.mutation call.subject = false) :
    ofKey call.event.key
        (runLog (.new readsPerMinute mutationsPerMinute) (before ++ call :: between)) =
      ofKey call.event.key (runLog (.new readsPerMinute mutationsPerMinute) before) := by
  have next := tracks_refused sorted split refused
  rw [isAccepted_check sorted split] at refused
  rw [split, List.pairwise_append, List.pairwise_cons, List.pairwise_append] at sorted
  have later : ∀ other ∈ between, call.now ≤ other.now := by
    intro other member
    exact sorted.2.1.1 other (List.mem_append_left rest member)
  have outcomes := (next.run later sorted.2.1.2.1).1
  rw [after_limits] at outcomes
  unfold SubjectRateLimiter.accepted at silent
  rw [outcomes] at silent
  have grown : runLog (.new readsPerMinute mutationsPerMinute) (before ++ call :: between) =
      runLog (.new readsPerMinute mutationsPerMinute) before ++
        (((verdicts (SubjectRateLimiter.new readsPerMinute mutationsPerMinute).limits
          (runLog (.new readsPerMinute mutationsPerMinute) before) between).filter
            isAccepted).map Prod.fst).map Call.event := by
    rw [← logAfter_verdicts]
    unfold runLog at refused ⊢
    rw [List.map_append, List.map_cons, logAfter_append, logAfter_cons]
    congr 1
    rw [logged, refused, if_neg Bool.false_ne_true]
  rw [grown]
  unfold ofKey
  rw [List.filter_append, List.append_right_eq_self, List.filter_eq_nil_iff]
  intro event member
  obtain ⟨other, accepted, rfl⟩ := List.mem_map.mp member
  have unlike := silent other accepted
  rw [decide_eq_true_eq]
  intro own
  have like : other.isLike call.mutation call.subject = true := by
    simpa [Call.isLike, Call.event] using own
  rw [unlike] at like
  cases like

theorem outcomes_fst (limiter : SubjectRateLimiter) (calls : List Call) :
    (limiter.outcomes calls).map Prod.fst = calls := by
  induction calls generalizing limiter with
  | nil => rfl
  | cons call rest ih => rw [SubjectRateLimiter.outcomes, List.map_cons, ih]

theorem mem_of_mem_accepted {limiter : SubjectRateLimiter} {call : Call}
    (member : call ∈ limiter.accepted calls) : call ∈ calls := by
  obtain ⟨outcome, kept, rfl⟩ := List.mem_map.mp member
  rw [← outcomes_fst limiter calls]
  exact List.mem_map_of_mem (List.mem_filter.mp kept).1

theorem le_secondsCeil (duration : Nat) : duration ≤ secondsCeil duration * nanosPerSecond := by
  have positive : 0 < nanosPerSecond := by decide
  have parts := Nat.div_add_mod duration nanosPerSecond
  have small := Nat.mod_lt duration positive
  rw [Nat.mul_comm] at parts
  unfold secondsCeil
  by_cases rest : 0 < duration % nanosPerSecond
  · have enough : duration / nanosPerSecond + 1 ≤
        max (duration / nanosPerSecond + if 0 < duration % nanosPerSecond then 1 else 0) 1 := by
      rw [if_pos rest]
      exact le_max_left _ _
    calc duration
        ≤ (duration / nanosPerSecond + 1) * nanosPerSecond := by rw [Nat.add_one_mul]; omega
      _ ≤ _ := Nat.mul_le_mul_right _ enough
  · have enough : duration / nanosPerSecond ≤
        max (duration / nanosPerSecond + if 0 < duration % nanosPerSecond then 1 else 0) 1 :=
      le_trans (Nat.le_add_right _ _) (le_max_left _ _)
    calc duration
        ≤ (duration / nanosPerSecond) * nanosPerSecond := by omega
      _ ≤ _ := Nat.mul_le_mul_right _ enough

/-- A refused call finds its window full, and its hint reaches to where the oldest
instant of the window has left it. -/
theorem Tracks.refused {limiter : SubjectRateLimiter} {log : List (Event (Bool × Text))}
    {call : Call} (tracks : Tracks limiter log call.now)
    (positive : 0 < limiter.limit call.mutation) {seconds : Nat}
    (refused : (limiter.check call).1 = .error (.rateLimited seconds)) :
    admits limiter.limits rateLimitWindow log call.event = false ∧
      ∃ oldest others, recent rateLimitWindow log call.event = oldest :: others ∧
        oldest + rateLimitWindow ≤ call.now + seconds * nanosPerSecond := by
  rw [tracks.check_fst (le_refl _)] at refused
  unfold verdict at refused
  split at refused
  · cases refused
  · rename_i notAdmitted
    have full : limiter.limit call.mutation ≤ (recent rateLimitWindow log call.event).length := by
      unfold admits at notAdmitted
      rw [decide_eq_true_eq] at notAdmitted
      exact not_lt.mp notAdmitted
    refine ⟨by simpa using notAdmitted, ?_⟩
    cases queue : recent rateLimitWindow log call.event with
    | nil =>
        rw [queue] at full
        exact absurd positive (not_lt.mpr full)
    | cons oldest others =>
        rw [queue] at refused
        have hint : retryAfter (oldest :: others) call.now = seconds :=
          AdminAuthorizationError.rateLimited.inj (Except.error.inj refused)
        have enough := le_secondsCeil (oldest + rateLimitWindow - call.now)
        change secondsCeil (oldest + rateLimitWindow - call.now) = seconds at hint
        rw [hint] at enough
        exact ⟨oldest, others, rfl, by omega⟩

/-- Once the oldest instant of a full window has left it, there is room. -/
theorem Tracks.room {limiter : SubjectRateLimiter} {log later : List (Event (Bool × Text))}
    {call again : Call} (tracks : Tracks limiter log call.now)
    (few : (recent rateLimitWindow log call.event).length ≤ limiter.limit call.mutation)
    {oldest : Nat} {others : List Nat}
    (queue : recent rateLimitWindow log call.event = oldest :: others)
    (left : oldest + rateLimitWindow ≤ again.now) (next : call.now ≤ again.now)
    (key : again.event.key = call.event.key)
    (same : ofKey call.event.key later = ofKey call.event.key log) :
    admits limiter.limits rateLimitWindow later again.event = true := by
  have whole : recent rateLimitWindow later again.event =
      (oldest :: others).filter fun time => decide (again.now < time + rateLimitWindow) := by
    have step := tracks.recent_later (le_refl _) next
    rw [queue] at step
    rw [step, ← recent_ofKey rateLimitWindow later, key, same, ← key, recent_ofKey]
    have event : again.event = ⟨(call.mutation, call.subject), again.now⟩ := by
      change (⟨again.event.key, again.now⟩ : Event (Bool × Text)) = _
      rw [key]
      rfl
    rw [event]
  have gone : ¬decide (again.now < oldest + rateLimitWindow) = true := by
    rw [decide_eq_true_eq]
    omega
  have shorter := List.length_filter_le (fun time => decide (again.now < time + rateLimitWindow))
    others
  have limit : limiter.limits again.event.key = limiter.limit call.mutation := by
    rw [key]
    rfl
  rw [queue, List.length_cons] at few
  unfold admits
  rw [decide_eq_true_eq, whole, List.filter_cons, if_neg gone, limit]
  omega

theorem length_recent_runLog
    (sorted : calls.Pairwise fun first second => first.now ≤ second.now)
    {before rest : List Call} {call : Call} (split : calls = before ++ call :: rest) :
    (recent rateLimitWindow (runLog (.new readsPerMinute mutationsPerMinute) before)
      call.event).length ≤
        (SubjectRateLimiter.new readsPerMinute mutationsPerMinute).limit call.mutation := by
  rw [split, List.pairwise_append] at sorted
  have bounded : ∀ (key : Bool × Text) (test : Nat → Bool),
      (∀ a b, test a = true → test b = true → b < a + rateLimitWindow) →
        countIn (runLog (.new readsPerMinute mutationsPerMinute) before) key test ≤
          (SubjectRateLimiter.new readsPerMinute mutationsPerMinute).limits key :=
    fun _ _ narrow => countIn_logAfter narrow (Nat.zero_le _) _
  have past : ∀ other ∈ runLog (.new readsPerMinute mutationsPerMinute) before,
      other.time ≤ call.event.time := by
    intro other member
    rw [runLog_eq sorted.1] at member
    obtain ⟨earlier, kept, rfl⟩ := List.mem_map.mp member
    exact sorted.2.2 earlier (mem_of_mem_accepted kept) call List.mem_cons_self
  exact length_recent_le bounded past

/-- The limiter is an exact sliding window, whatever the calls. -/
theorem isExactWindow (reads : 0 < readsPerMinute) (mutations : 0 < mutationsPerMinute)
    (sorted : calls.Pairwise fun first second => first.now ≤ second.now) :
    IsExactWindow (.new readsPerMinute mutationsPerMinute) calls := by
  have positive : ∀ mutation,
      0 < (SubjectRateLimiter.new readsPerMinute mutationsPerMinute).limit mutation := by
    intro mutation
    cases mutation
    · exact reads
    · exact mutations
  have start := tracks_new readsPerMinute mutationsPerMinute 0
  constructor
  · intro before call rest split
    have sortedBefore : before.Pairwise fun first second => first.now ≤ second.now := by
      rw [split, List.pairwise_append] at sorted
      exact sorted.1
    rw [isAccepted_check sorted split, countAccepted_eq sortedBefore, countIn_recent]
    unfold admits
    rw [decide_eq_true_eq]
    rfl
  · intro mutation subject start
    constructor
    · apply countAccepted_le sorted
      intro a b first second
      simp only [Bool.and_eq_true, decide_eq_true_eq] at first second
      omega
    · apply countAccepted_le sorted
      intro a b first second
      simp only [Bool.and_eq_true, decide_eq_true_eq] at first second
      omega
  · intro before call rest split refused
    exact outcomes_refused sorted split refused
  · intro mutation subject
    have own := (start.run (fun _ _ => Nat.zero_le _) sorted).1
    have alone := (start.run (fun _ _ => Nat.zero_le _)
      (sorted.filter fun call => call.isLike mutation subject)).1
    rw [own, alone, verdicts_like]
    rfl
  · intro before call between again rest seconds split refused mutation subject waited silent
    have tracks : Tracks ((SubjectRateLimiter.new readsPerMinute mutationsPerMinute).after before)
        (runLog (.new readsPerMinute mutationsPerMinute) before) call.now :=
      tracks_before sorted split
    have limits := after_limits (SubjectRateLimiter.new readsPerMinute mutationsPerMinute) before
    have limit : ((SubjectRateLimiter.new readsPerMinute mutationsPerMinute).after before).limit =
        (SubjectRateLimiter.new readsPerMinute mutationsPerMinute).limit := by
      funext mutation
      exact congrFun limits (mutation, call.subject)
    obtain ⟨notAdmitted, oldest, others, queue, left⟩ :=
      tracks.refused (by rw [limit]; exact positive call.mutation) refused
    have notAccepted : isAccepted (call, (((SubjectRateLimiter.new readsPerMinute
        mutationsPerMinute).after before).check call).1) = false := by
      rw [refused]
      rfl
    have same := ofKey_runLog_refused sorted split notAccepted silent
    have resplit : calls = (before ++ call :: between) ++ again :: rest := by
      rw [split, List.append_assoc, List.cons_append]
    have few := @length_recent_runLog readsPerMinute mutationsPerMinute calls sorted _ _ call split
    rw [isAccepted_check sorted resplit, ← limits]
    rw [← limit] at few
    apply tracks.room few queue (by omega) (by omega) ?_ same
    change (again.mutation, again.subject) = (call.mutation, call.subject)
    rw [mutation, subject]

/-- One read a minute: the hint of the refused call is rounded up to a whole second,
and the call that follows it is accepted. -/
def exampleCalls : List Call := [
  ⟨"viewer".toList, false, 0⟩, ⟨"viewer".toList, false, 10500000000⟩,
  ⟨"operator".toList, false, 20000000000⟩, ⟨"viewer".toList, false, 60500000000⟩]

theorem isExactWindow_example :
    IsExactWindow (.new 1 1) exampleCalls ∧
      ((SubjectRateLimiter.new 1 1).outcomes exampleCalls).map Prod.snd =
        [.ok (), .error (.rateLimited 50), .ok (), .ok ()] :=
  ⟨isExactWindow (by decide) (by decide) (by decide), by decide⟩

end Exactness

end TechAtlas.Admin
