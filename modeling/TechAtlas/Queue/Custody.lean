import TechAtlas.Library.Transition
import TechAtlas.Queue

set_option autoImplicit false

/- The consumers of the crawl stream, command by command: any number of workers
read, claim, count, dead-letter, acknowledge and delete, and each may stop
between two commands or in one. -/
namespace TechAtlas.Queue

open Library

section Redis

/-- The stream, and the entries that `XDEL` has taken out of it. -/
structure Redis where
  stream : Stream
  deleted : List Nat

namespace Redis

variable (redis : Redis)

def readOne : Option (Redis × StreamEntry) :=
  (redis.stream.entries.find? fun entry =>
    entry.state == .unread && !redis.deleted.contains entry.id).map fun entry =>
      ({ redis with stream := redis.stream.setState entry.id fun _ => .pending 1 }, entry)

/-- `XREADGROUP ... COUNT`: the oldest entries no consumer has read. -/
def readGroup : Nat → Redis → Redis × List StreamEntry
  | 0, redis => (redis, [])
  | count + 1, redis =>
      match redis.readOne with
      | none => (redis, [])
      | some (next, entry) =>
          let (last, rest) := readGroup count next
          (last, entry :: rest)

/-- `XAUTOCLAIM` of one entry. A pending entry that was deleted is taken off the
pending list and not returned. -/
def autoClaim (entryId : Nat) : Redis × List StreamEntry :=
  match redis.stream.find entryId with
  | some entry =>
      match entry.state with
      | .pending _ =>
          if entryId ∈ redis.deleted then
            ({ redis with stream := redis.stream.acknowledge entryId }, [])
          else ({ redis with stream := redis.stream.setState entryId Stream.redelivered }, [entry])
      | _ => (redis, [])
  | none => (redis, [])

/-- Which entries have been idle for long enough is up to the environment. -/
def autoClaimAll : List Nat → Redis → Redis × List StreamEntry
  | [], redis => (redis, [])
  | entryId :: stale, redis =>
      let (next, first) := redis.autoClaim entryId
      let (last, rest) := autoClaimAll stale next
      (last, first ++ rest)

end Redis

end Redis

section Tasks

structure ReceivedCrawlJob where
  receipt : Nat
  job : CrawlJobV1
  deliveryCount : Nat
  deriving DecidableEq, Repr

/-- The function whose loop a task is in. -/
inductive Loop
  | receive
  | reclaimStale
  deriving DecidableEq, Repr

/-- What a worker does next: look at the first entry of the batch, write a dead
letter, process a job, acknowledge it or delete it. -/
inductive Task
  | scan (loop : Loop) (batch : List StreamEntry) (jobs : List ReceivedCrawlJob)
  | reject (loop : Loop) (letter : DeadLetter) (batch : List StreamEntry)
      (jobs : List ReceivedCrawlJob)
  | process (received : ReceivedCrawlJob)
  | acknowledge (receipt : Nat)
  | delete (receipt : Nat)

/-- `decode_entry`, up to the dead letter. -/
def decodeEntry (loop : Loop) (entry : StreamEntry) (deliveryCount : Nat)
    (batch : List StreamEntry) (jobs : List ReceivedCrawlJob) : Task :=
  match entry.job with
  | some job =>
      .scan loop batch
        (jobs ++ [{ receipt := entry.id, job := job, deliveryCount := deliveryCount }])
  | none =>
      .reject loop
        { sourceEntryId := entry.id
          payload := none
          deliveryCount := deliveryCount
          reason := .invalidPayload } batch jobs

/-- The loop body of `reclaim_stale`, once the deliveries are counted. -/
def examineClaimed (config : RedisStreamsConfig) (entry : StreamEntry) (deliveryCount : Nat)
    (batch : List StreamEntry) (jobs : List ReceivedCrawlJob) : Task :=
  if config.maxDeliveries ≤ deliveryCount then
    .reject .reclaimStale
      { sourceEntryId := entry.id
        payload := entry.job
        deliveryCount := deliveryCount
        reason := .deliveryLimitExceeded } batch jobs
  else decodeEntry .reclaimStale entry deliveryCount batch jobs

variable (redis : Redis)

/-- What the next command of the task does. -/
def Task.command : Task → Redis
  | .reject _ letter _ _ => { redis with stream := redis.stream.deadLetter letter }
  | .acknowledge receipt => { redis with stream := redis.stream.acknowledge receipt }
  | .delete receipt => { redis with deleted := receipt :: redis.deleted }
  | _ => redis

/-- What the task goes on as, when its next command succeeds. A function that
returns hands its jobs to the workers; `process` returns by an action of its own. -/
def Task.continue (config : RedisStreamsConfig) : Task → List Task
  | .scan _ [] jobs => jobs.map .process
  | .scan .receive (entry :: batch) jobs => [decodeEntry .receive entry 1 batch jobs]
  | .scan .reclaimStale (entry :: batch) jobs =>
      match redis.stream.deliveryCount entry.id with
      | some deliveryCount => [examineClaimed config entry deliveryCount batch jobs]
      -- `MissingPendingEntry`
      | none => []
  | .reject loop _ batch jobs => [.scan loop batch jobs]
  | .process received => [.process received]
  | .acknowledge receipt =>
      match redis.stream.deliveryCount receipt with
      | some _ => [.delete receipt]
      -- `AcknowledgementMissing`
      | none => []
  | .delete _ => []

/-- The entries that a function hands to the workers as it returns. -/
def Task.returned : Task → List Nat
  | .scan _ [] jobs => jobs.map ReceivedCrawlJob.receipt
  | _ => []

end Tasks

section Machine

/-- Redis and the workers' tasks, with a record of the entries that were handed
to workers and of those for which `process` returned `Ok`. -/
structure Consumers where
  redis : Redis
  tasks : List Task
  handed : List Nat
  processed : List Nat

def Consumers.initial : Consumers where
  redis := { stream := Stream.empty, deleted := [] }
  tasks := []
  handed := []
  processed := []

/-- A number names a task by its place. A command that fails may have been
carried out all the same; its task stops. -/
inductive Action
  | publish (job : CrawlJobV1)
  | addInvalid
  | receive (count : Nat)
  | reclaimStale (stale : List Nat)
  | advance (place : Nat)
  | process (place : Nat) (ok : Bool)
  | stop (place : Nat) (landed : Bool)

variable (config : RedisStreamsConfig) (s : Consumers)

def Consumers.replace (place : Nat) (tasks : List Task) : Consumers :=
  { s with tasks := s.tasks.take place ++ tasks ++ s.tasks.drop (place + 1) }

def Consumers.advance (place : Nat) : Consumers :=
  match s.tasks[place]? with
  | some task =>
      { s with
        redis := task.command s.redis
        handed := s.handed ++ task.returned }.replace place (task.continue s.redis config)
  | none => s

def Consumers.process (place : Nat) (ok : Bool) : Consumers :=
  match s.tasks[place]? with
  | some (.process received) =>
      if ok then
        { s with processed := s.processed ++ [received.receipt] }.replace place
          [.acknowledge received.receipt]
      else s.replace place []
  | _ => s

def Consumers.stop (place : Nat) (landed : Bool) : Consumers :=
  match s.tasks[place]? with
  | some task =>
      { s with redis := if landed then task.command s.redis else s.redis }.replace place []
  | none => s

def Consumers.publish (job : Option CrawlJobV1) : Consumers :=
  { s with redis := { s.redis with stream := s.redis.stream.add job } }

def Consumers.begin (loop : Loop) (reply : Redis × List StreamEntry) : Consumers :=
  { s with redis := reply.1, tasks := s.tasks ++ [.scan loop reply.2 []] }

def Consumers.step : Action → Consumers
  | .publish job => s.publish (some job)
  | .addInvalid => s.publish none
  | .receive count => s.begin .receive (Redis.readGroup count s.redis)
  | .reclaimStale stale => s.begin .reclaimStale (Redis.autoClaimAll stale s.redis)
  | .advance place => s.advance config place
  | .process place ok => s.process place ok
  | .stop place landed => s.stop place landed

end Machine

section States

namespace Stream

variable {stream : Stream} {entryId id : Nat} {state : EntryState}

/-- Where the entry stands; none before it is published. -/
def stateOf (stream : Stream) (entryId : Nat) : Option EntryState :=
  (stream.find entryId).map StreamEntry.state

theorem stateOf_eq_some :
    stream.stateOf entryId = some state ↔
      ∃ entry ∈ stream.entries, entry.id = entryId ∧ entry.state = state := by
  simp only [stateOf, find, Option.map_eq_some_iff, find?_key_eq_some stream.unique, and_assoc]

theorem stateOf_add (job : Option CrawlJobV1) :
    (stream.add job).stateOf id =
      if id = stream.nextId then some .unread else stream.stateOf id := by
  ext state
  rw [stateOf_eq_some]
  simp only [add, List.mem_append, List.mem_singleton]
  split
  · rename_i new
    constructor
    · rintro ⟨entry, old | rfl, same, rfl⟩
      · have below := stream.fresh entry old
        omega
      · rfl
    · intro same
      exact ⟨_, Or.inr rfl, new.symm, Option.some.inj same⟩
  · rename_i other
    rw [stateOf_eq_some]
    constructor
    · rintro ⟨entry, old | rfl, same, rfl⟩
      · exact ⟨entry, old, same, rfl⟩
      · exact absurd same.symm other
    · rintro ⟨entry, old, facts⟩
      exact ⟨entry, Or.inl old, facts⟩

theorem stateOf_setState (change : EntryState → EntryState) :
    (stream.setState entryId change).stateOf id =
      if id = entryId then (stream.stateOf id).map change else stream.stateOf id := by
  have found : (stream.setState entryId change).stateOf id =
      (stream.stateOf id).map fun state => if id = entryId then change state else state := by
    ext state
    rw [stateOf_eq_some, Option.map_eq_some_iff]
    simp only [stateOf_eq_some, setState]
    constructor
    · rintro ⟨entry, member, rfl, rfl⟩
      rcases mem_updateWhere_cases member with ⟨old, other⟩ | ⟨old, inStream, chosen, rfl⟩
      · have apart : entry.id ≠ entryId := by simpa using other
        exact ⟨entry.state, ⟨entry, old, rfl, rfl⟩, if_neg apart⟩
      · have same : old.id = entryId := by simpa using chosen
        exact ⟨old.state, ⟨old, inStream, rfl, rfl⟩, if_pos same⟩
    · rintro ⟨_, ⟨entry, member, rfl, rfl⟩, rfl⟩
      by_cases same : entry.id = entryId
      · rw [if_pos same]
        exact ⟨_, mem_updateWhere_of_selected member (by simpa using same), rfl, rfl⟩
      · rw [if_neg same]
        exact ⟨entry, mem_updateWhere_of_not member (by simpa using same), rfl, rfl⟩
  rw [found]
  split
  · rfl
  · exact Option.map_id'

/-- Which identifiers have been drawn. -/
theorem stateOf_isSome_lt (present : (stream.stateOf id).isSome = true) : id < stream.nextId := by
  obtain ⟨state, found⟩ := Option.isSome_iff_exists.mp present
  obtain ⟨entry, member, rfl, _⟩ := stateOf_eq_some.mp found
  exact stream.fresh entry member

theorem deliveryCount_eq_some {count : Nat} :
    stream.deliveryCount entryId = some count ↔ stream.stateOf entryId = some (.pending count) := by
  unfold deliveryCount stateOf
  cases found : stream.find entryId with
  | none => simp
  | some entry =>
      rcases entry with ⟨_, _, _ | _ | _⟩ <;> simp

end Stream

end States

section Replies

variable {redis next : Redis} {entry : StreamEntry}

theorem readOne_stateOf (read : redis.readOne = some (next, entry)) :
    redis.stream.stateOf entry.id = some .unread ∧
      (∀ id, next.stream.stateOf id =
        if id = entry.id then some (.pending 1) else redis.stream.stateOf id) ∧
      next.deleted = redis.deleted ∧ next.stream.nextId = redis.stream.nextId ∧
      next.stream.deadLetters = redis.stream.deadLetters ∧
      next.stream.deadLetterIndex = redis.stream.deadLetterIndex := by
  obtain ⟨found, isFound, same⟩ := Option.map_eq_some_iff.mp read
  cases same
  obtain ⟨member, selected⟩ := find?_eq_some_mem isFound
  have unread : entry.state = .unread := by
    rw [Bool.and_eq_true] at selected
    exact beq_iff_eq.mp selected.1
  have state : redis.stream.stateOf entry.id = some .unread :=
    Stream.stateOf_eq_some.mpr ⟨entry, member, rfl, unread⟩
  refine ⟨state, ?_, rfl, rfl, rfl, rfl⟩
  intro id
  rw [Stream.stateOf_setState]
  split
  · rename_i own
    rw [own, state]
    rfl
  · rfl

/-- What a command that only moves entries between the lists of the group keeps. -/
structure SameLetters (redis next : Redis) : Prop where
  deleted : next.deleted = redis.deleted
  nextId : next.stream.nextId = redis.stream.nextId
  letters : next.stream.deadLetters = redis.stream.deadLetters
  index : next.stream.deadLetterIndex = redis.stream.deadLetterIndex

theorem SameLetters.refl (redis : Redis) : SameLetters redis redis := ⟨rfl, rfl, rfl, rfl⟩

theorem SameLetters.trans {first second third : Redis} (left : SameLetters first second)
    (right : SameLetters second third) : SameLetters first third where
  deleted := right.deleted.trans left.deleted
  nextId := right.nextId.trans left.nextId
  letters := right.letters.trans left.letters
  index := right.index.trans left.index

/-- An entry of the reply was unread and is pending for the first time; every
other entry is as it was. -/
theorem readGroup_stateOf (count : Nat) (redis : Redis) :
    let reply := Redis.readGroup count redis
    SameLetters redis reply.1 ∧ ∀ id,
      ((reply.2.map StreamEntry.id).count id = 0 ∧
          reply.1.stream.stateOf id = redis.stream.stateOf id) ∨
        ((reply.2.map StreamEntry.id).count id = 1 ∧ redis.stream.stateOf id = some .unread ∧
          reply.1.stream.stateOf id = some (.pending 1)) := by
  intro reply
  induction count generalizing redis with
  | zero => exact ⟨SameLetters.refl redis, fun _ => Or.inl ⟨rfl, rfl⟩⟩
  | succ count ih =>
      simp only [reply, Redis.readGroup]
      cases read : redis.readOne with
      | none => exact ⟨SameLetters.refl redis, fun _ => Or.inl ⟨rfl, rfl⟩⟩
      | some found =>
          obtain ⟨next, entry⟩ := found
          dsimp only
          obtain ⟨unread, states, deleted, nextId, letters, index⟩ := readOne_stateOf read
          obtain ⟨same, rest⟩ := ih next
          refine ⟨SameLetters.trans ⟨deleted, nextId, letters, index⟩ same, ?_⟩
          intro id
          rw [List.map_cons, List.count_cons]
          have here := states id
          by_cases own : id = entry.id
          · rw [if_pos own] at here
            rcases rest id with ⟨none, kept⟩ | ⟨_, again, _⟩
            · refine Or.inr ⟨?_, by rw [own, unread], by rw [kept, here]⟩
              rw [none, own]
              simp
            · rw [here] at again
              cases again
          · rw [if_neg own] at here
            have apart : (entry.id == id) = false := by simpa using Ne.symm own
            rw [apart]
            simpa [here] using rest id

/-- A claimed entry is pending, with one delivery more for each claim. -/
theorem autoClaim_stateOf (redis : Redis) (entryId : Nat)
    (removed : ∀ id ∈ redis.deleted, redis.stream.stateOf id = some .acknowledged) :
    let reply := redis.autoClaim entryId
    SameLetters redis reply.1 ∧ ∀ id,
      ((reply.2.map StreamEntry.id).count id = 0 ∧
          reply.1.stream.stateOf id = redis.stream.stateOf id) ∨
        ((reply.2.map StreamEntry.id).count id = 1 ∧
          ∃ n, redis.stream.stateOf id = some (.pending n) ∧
            reply.1.stream.stateOf id = some (.pending (n + 1))) := by
  simp only [Redis.autoClaim]
  cases found : redis.stream.find entryId with
  | none => exact ⟨SameLetters.refl redis, fun _ => Or.inl ⟨rfl, rfl⟩⟩
  | some entry =>
      have state : redis.stream.stateOf entryId = some entry.state := by
        rw [Stream.stateOf, found]
        rfl
      dsimp only
      split
      · rename_i n pending
        rw [pending] at state
        have present : entryId ∉ redis.deleted := by
          intro gone
          rw [removed entryId gone] at state
          cases state
        rw [if_neg present]
        refine ⟨⟨rfl, rfl, rfl, rfl⟩, ?_⟩
        intro id
        have same : entry.id = entryId := (Stream.mem_of_find found).2
        rw [Stream.stateOf_setState]
        by_cases own : id = entryId
        · refine Or.inr ⟨by simp [own, same], n, by rw [own, state], ?_⟩
          rw [if_pos own, own, state]
          rfl
        · rw [if_neg own]
          refine Or.inl ⟨?_, rfl⟩
          rw [List.map_singleton, same, List.count_singleton, if_neg (by simpa using Ne.symm own)]
      · exact ⟨SameLetters.refl redis, fun _ => Or.inl ⟨rfl, rfl⟩⟩

theorem autoClaimAll_stateOf (stale : List Nat) (redis : Redis)
    (removed : ∀ id ∈ redis.deleted, redis.stream.stateOf id = some .acknowledged) :
    let reply := Redis.autoClaimAll stale redis
    SameLetters redis reply.1 ∧ ∀ id,
      ((reply.2.map StreamEntry.id).count id = 0 ∧
          reply.1.stream.stateOf id = redis.stream.stateOf id) ∨
        ∃ n, redis.stream.stateOf id = some (.pending n) ∧
          reply.1.stream.stateOf id =
            some (.pending (n + (reply.2.map StreamEntry.id).count id)) := by
  intro reply
  induction stale generalizing redis with
  | nil => exact ⟨SameLetters.refl redis, fun _ => Or.inl ⟨rfl, rfl⟩⟩
  | cons entryId stale ih =>
      simp only [reply, Redis.autoClaimAll]
      obtain ⟨first, claimed⟩ := autoClaim_stateOf redis entryId removed
      have still : ∀ id ∈ (redis.autoClaim entryId).1.deleted,
          (redis.autoClaim entryId).1.stream.stateOf id = some .acknowledged := by
        intro id gone
        rw [first.deleted] at gone
        have settled := removed id gone
        rcases claimed id with ⟨_, same⟩ | ⟨_, n, pending, _⟩
        · rw [same, settled]
        · rw [pending] at settled
          cases settled
      obtain ⟨others, rest⟩ := ih (redis.autoClaim entryId).1 still
      refine ⟨first.trans others, ?_⟩
      intro id
      rw [List.map_append, List.count_append]
      rcases claimed id with ⟨none, same⟩ | ⟨one, n, pending, now⟩
      · rw [none, Nat.zero_add, ← same]
        exact rest id
      · refine Or.inr ⟨n, pending, ?_⟩
        rcases rest id with ⟨none, same⟩ | ⟨m, again, last⟩
        · rw [same, now, one, none]
        · rw [now] at again
          cases again
          rw [last, one, Nat.add_assoc]

end Replies

section Accounts

/-- How often the task holds the entry for a worker: a first delivery from when
it is read, a later one from when its deliveries were counted. -/
def Task.granted (id : Nat) : Task → Nat
  | .scan .receive batch jobs =>
      (batch.map StreamEntry.id).count id + (jobs.map ReceivedCrawlJob.receipt).count id
  | .scan .reclaimStale _ jobs => (jobs.map ReceivedCrawlJob.receipt).count id
  | .reject .receive _ batch jobs =>
      (batch.map StreamEntry.id).count id + (jobs.map ReceivedCrawlJob.receipt).count id
  | .reject .reclaimStale _ _ jobs => (jobs.map ReceivedCrawlJob.receipt).count id
  | _ => 0

/-- How often the entry is claimed by the task and not counted yet. -/
def Task.waiting (id : Nat) : Task → Nat
  | .scan .reclaimStale batch _ => (batch.map StreamEntry.id).count id
  | .reject .reclaimStale _ batch _ => (batch.map StreamEntry.id).count id
  | _ => 0

/-- An entry is acknowledged once its job is processed, and deleted once it is
acknowledged. -/
def Task.justified (redis : Redis) (processed : List Nat) : Task → Prop
  | .acknowledge receipt => receipt ∈ processed
  | .delete receipt => redis.stream.stateOf receipt = some .acknowledged
  | _ => True

def grantedBy (tasks : List Task) (id : Nat) : Nat := (tasks.map (Task.granted id)).sum

def waitingIn (tasks : List Task) (id : Nat) : Nat := (tasks.map (Task.waiting id)).sum

def Consumers.granted (s : Consumers) (id : Nat) : Nat := s.handed.count id + grantedBy s.tasks id

/-- The entries the tasks hold are covered by the deliveries. -/
def Covered (held : Nat) : Option EntryState → Prop
  | none => held = 0
  | some .unread => held = 0
  | some (.pending timesDelivered) => held ≤ timesDelivered
  | some .acknowledged => True

theorem Covered.of_le {held less : Nat} {state : Option EntryState} (covered : Covered held state)
    (le : less ≤ held) : Covered less state := by
  rcases state with _ | _ | _ | _
  · exact Nat.le_zero.mp (covered ▸ le)
  · exact Nat.le_zero.mp (covered ▸ le)
  · exact le.trans covered
  · trivial

/-- The first delivery, and those whose count is below the limit. -/
def RedisStreamsConfig.grants (config : RedisStreamsConfig) : Nat := max 1 (config.maxDeliveries - 1)

structure Accounted (config : RedisStreamsConfig) (s : Consumers) : Prop where
  published : ∀ id < s.redis.stream.nextId, (s.redis.stream.stateOf id).isSome = true
  covered : ∀ id, Covered (s.granted id + waitingIn s.tasks id) (s.redis.stream.stateOf id)
  bounded : ∀ id, s.granted id ≤ config.grants
  settled : ∀ id, s.redis.stream.stateOf id = some .acknowledged →
    id ∈ s.processed ∨ id ∈ s.redis.stream.deadLetterIndex
  deleted : ∀ id ∈ s.redis.deleted, s.redis.stream.stateOf id = some .acknowledged
  justified : ∀ task ∈ s.tasks, task.justified s.redis s.processed
  letters : s.redis.stream.deadLetters.map DeadLetter.sourceEntryId =
    s.redis.stream.deadLetterIndex
  once : s.redis.stream.deadLetterIndex.Nodup

theorem grantedBy_append (first second : List Task) (id : Nat) :
    grantedBy (first ++ second) id = grantedBy first id + grantedBy second id := by
  rw [grantedBy, List.map_append, List.sum_append]
  rfl

theorem waitingIn_append (first second : List Task) (id : Nat) :
    waitingIn (first ++ second) id = waitingIn first id + waitingIn second id := by
  rw [waitingIn, List.map_append, List.sum_append]
  rfl

theorem initial_accounted (config : RedisStreamsConfig) : Accounted config Consumers.initial where
  published := by simp [Consumers.initial, Stream.empty]
  covered := fun _ => rfl
  bounded := fun _ => Nat.zero_le _
  settled := by
    intro id found
    cases found
  deleted := by simp [Consumers.initial]
  justified := by simp [Consumers.initial]
  letters := rfl
  once := List.nodup_nil

end Accounts

section Commands

variable {redis : Redis} {processed : List Nat}

/-- What the commands of the tasks do to the lists of the group: they only take
pending entries off, for a reason. -/
structure Settles (redis next : Redis) (processed : List Nat) : Prop where
  nextId : next.stream.nextId = redis.stream.nextId
  states : ∀ id, next.stream.stateOf id = redis.stream.stateOf id ∨
    (∃ n, redis.stream.stateOf id = some (.pending n)) ∧
      next.stream.stateOf id = some .acknowledged ∧
      (id ∈ processed ∨ id ∈ next.stream.deadLetterIndex)
  index : ∀ id ∈ redis.stream.deadLetterIndex, id ∈ next.stream.deadLetterIndex
  deleted : ∀ id ∈ next.deleted, id ∈ redis.deleted ∨
    next.stream.stateOf id = some .acknowledged
  letters : redis.stream.deadLetters.map DeadLetter.sourceEntryId = redis.stream.deadLetterIndex →
    next.stream.deadLetters.map DeadLetter.sourceEntryId = next.stream.deadLetterIndex
  once : redis.stream.deadLetterIndex.Nodup → next.stream.deadLetterIndex.Nodup

theorem Settles.refl (redis : Redis) (processed : List Nat) : Settles redis redis processed where
  nextId := rfl
  states := fun _ => Or.inl rfl
  index := fun _ => id
  deleted := fun _ => Or.inl
  letters := id
  once := id

theorem Settles.acknowledged {next : Redis} (settles : Settles redis next processed) {id : Nat}
    (settled : redis.stream.stateOf id = some .acknowledged) :
    next.stream.stateOf id = some .acknowledged := by
  rcases settles.states id with same | ⟨_, now, _⟩
  · rw [same, settled]
  · exact now

theorem stateOf_acknowledge (stream : Stream) (entryId id : Nat) :
    (stream.acknowledge entryId).stateOf id = stream.stateOf id ∨
      (id = entryId ∧ (∃ n, stream.stateOf id = some (.pending n)) ∧
        (stream.acknowledge entryId).stateOf id = some .acknowledged) := by
  rw [Stream.acknowledge, Stream.stateOf_setState]
  by_cases own : id = entryId
  · rw [if_pos own]
    rcases stream.stateOf id with _ | _ | n | _
    · exact Or.inl rfl
    · exact Or.inl rfl
    · exact Or.inr ⟨own, ⟨n, rfl⟩, rfl⟩
    · exact Or.inl rfl
  · rw [if_neg own]
    exact Or.inl rfl

theorem stateOf_deadLetter (stream : Stream) (letter : DeadLetter) (id : Nat) :
    (stream.deadLetter letter).stateOf id =
      (stream.acknowledge letter.sourceEntryId).stateOf id := by
  unfold Stream.stateOf Stream.find
  rw [Stream.deadLetter_entries]

theorem mem_index_deadLetter (stream : Stream) (letter : DeadLetter) :
    (stream.deadLetter letter).deadLetterIndex =
      if letter.sourceEntryId ∈ stream.deadLetterIndex then stream.deadLetterIndex
      else stream.deadLetterIndex ++ [letter.sourceEntryId] := by
  unfold Stream.deadLetter
  dsimp only
  split <;> rfl

theorem deadLetter_settles (letter : DeadLetter) :
    Settles redis { redis with stream := redis.stream.deadLetter letter } processed := by
  have index := mem_index_deadLetter redis.stream letter
  constructor
  · exact Stream.deadLetter_nextId redis.stream letter
  · intro id
    rw [stateOf_deadLetter]
    rcases stateOf_acknowledge redis.stream letter.sourceEntryId id with same | ⟨own, was, now⟩
    · exact Or.inl same
    · refine Or.inr ⟨was, now, Or.inr ?_⟩
      rw [index, own]
      by_cases known : letter.sourceEntryId ∈ redis.stream.deadLetterIndex
      · rw [if_pos known]
        exact known
      · rw [if_neg known]
        exact List.mem_append_right _ (by simp)
  · intro id member
    rw [index]
    split
    · exact member
    · exact List.mem_append_left _ member
  · exact fun id => Or.inl
  · intro same
    unfold Stream.deadLetter
    dsimp only
    split
    · exact same
    · exact (List.map_append).trans (by rw [same]; rfl)
  · intro once
    rw [index]
    split
    · exact once
    · rename_i unknown
      rw [List.nodup_append]
      refine ⟨once, List.nodup_singleton _, ?_⟩
      intro old member new isNew same
      rw [List.mem_singleton.mp isNew] at same
      exact unknown (same ▸ member)

/-- The commands of a justified task take an entry off the pending list only
when its job is processed or its dead letter is written. -/
theorem command_settles {task : Task} (justified : task.justified redis processed) :
    Settles redis (task.command redis) processed := by
  cases task with
  | scan _ _ _ => exact Settles.refl redis processed
  | reject _ letter _ _ => exact deadLetter_settles letter
  | process _ => exact Settles.refl redis processed
  | acknowledge receipt =>
      refine ⟨rfl, ?_, fun _ => id, fun _ => Or.inl, id, id⟩
      intro id
      rcases stateOf_acknowledge redis.stream receipt id with same | ⟨own, was, now⟩
      · exact Or.inl same
      · exact Or.inr ⟨was, now, Or.inl (own ▸ justified)⟩
  | delete receipt =>
      refine ⟨rfl, fun _ => Or.inl rfl, fun _ => id, ?_, id, id⟩
      intro id member
      rcases List.mem_cons.mp member with rfl | old
      · exact Or.inr justified
      · exact Or.inl old

end Commands

section Steps

variable {config : RedisStreamsConfig} {s : Consumers}

theorem Task.justified.of_settles {redis next : Redis} {processed more : List Nat} {task : Task}
    (justified : task.justified redis processed) (settles : Settles redis next more)
    (grows : ∀ id ∈ processed, id ∈ more) : task.justified next more := by
  cases task with
  | acknowledge receipt => exact grows receipt justified
  | delete receipt => exact settles.acknowledged justified
  | scan _ _ _ => trivial
  | reject _ _ _ _ => trivial
  | process _ => trivial

/-- One task runs a command and goes on as others, which hold no more entries
than it did. -/
theorem Accounted.update (accounted : Accounted config s) {front back new : List Task} {task : Task}
    (tasks : s.tasks = front ++ task :: back) {next : Redis} {handed processed : List Nat}
    (settles : Settles s.redis next processed) (grows : ∀ id ∈ s.processed, id ∈ processed)
    (held : ∀ id, handed.count id + grantedBy new id + waitingIn new id ≤
      s.handed.count id + task.granted id + task.waiting id)
    (bound : ∀ id, handed.count id + grantedBy new id ≤ s.handed.count id + task.granted id ∨
      handed.count id + grantedBy (front ++ new ++ back) id ≤ config.grants)
    (justified : ∀ other ∈ new, other.justified next processed) :
    Accounted config { redis := next, tasks := front ++ new ++ back, handed := handed,
                       processed := processed } := by
  have grantedBefore (id : Nat) : s.granted id =
      s.handed.count id + (grantedBy front id + (task.granted id + grantedBy back id)) := by
    rw [Consumers.granted, tasks, grantedBy_append]
    rfl
  have waitingBefore (id : Nat) : waitingIn s.tasks id =
      waitingIn front id + (task.waiting id + waitingIn back id) := by
    rw [tasks, waitingIn_append]
    rfl
  constructor
  · intro id below
    change id < next.stream.nextId at below
    rw [settles.nextId] at below
    rcases settles.states id with same | ⟨_, now, _⟩
    · change (next.stream.stateOf id).isSome = true
      rw [same]
      exact accounted.published id below
    · change (next.stream.stateOf id).isSome = true
      rw [now]
      rfl
  · intro id
    rcases settles.states id with same | ⟨_, now, _⟩
    · change Covered _ (next.stream.stateOf id)
      rw [same]
      refine (accounted.covered id).of_le ?_
      rw [grantedBefore, waitingBefore]
      change handed.count id + grantedBy (front ++ new ++ back) id +
        waitingIn (front ++ new ++ back) id ≤ _
      rw [grantedBy_append, grantedBy_append, waitingIn_append, waitingIn_append]
      have here := held id
      omega
    · change Covered _ (next.stream.stateOf id)
      rw [now]
      trivial
  · intro id
    change handed.count id + grantedBy (front ++ new ++ back) id ≤ config.grants
    rcases bound id with le | direct
    · have whole := accounted.bounded id
      rw [grantedBefore] at whole
      rw [grantedBy_append, grantedBy_append]
      omega
    · exact direct
  · intro id settled
    change next.stream.stateOf id = some .acknowledged at settled
    rcases settles.states id with same | ⟨_, _, reason⟩
    · rw [same] at settled
      rcases accounted.settled id settled with done | lettered
      · exact Or.inl (grows id done)
      · exact Or.inr (settles.index id lettered)
    · exact reason
  · intro id gone
    rcases settles.deleted id gone with old | now
    · exact settles.acknowledged (accounted.deleted id old)
    · exact now
  · intro other member
    rcases List.mem_append.mp member with inFront | inBack
    · rcases List.mem_append.mp inFront with old | isNew
      · exact (accounted.justified other (by rw [tasks]; simp [old])).of_settles settles grows
      · exact justified other isNew
    · exact (accounted.justified other (by rw [tasks]; simp [inBack])).of_settles settles grows
  · exact settles.letters accounted.letters
  · exact settles.once accounted.once

theorem split_at_place {place : Nat} {task : Task} (found : s.tasks[place]? = some task) :
    s.tasks = s.tasks.take place ++ task :: s.tasks.drop (place + 1) := by
  obtain ⟨inside, same⟩ := List.getElem?_eq_some_iff.mp found
  rw [← same, List.getElem_cons_drop, List.take_append_drop]

theorem Accounted.publish (accounted : Accounted config s) (job : Option CrawlJobV1) :
    Accounted config (s.publish job) := by
  have unknown : s.redis.stream.stateOf s.redis.stream.nextId = none := by
    cases found : s.redis.stream.stateOf s.redis.stream.nextId with
    | none => rfl
    | some state =>
        have below : s.redis.stream.nextId < s.redis.stream.nextId :=
          Stream.stateOf_isSome_lt (by rw [found]; rfl)
        exact absurd below (Nat.lt_irrefl _)
  have kept {id : Nat} (settled : s.redis.stream.stateOf id = some .acknowledged) :
      (s.redis.stream.add job).stateOf id = some .acknowledged := by
    rw [Stream.stateOf_add, if_neg, settled]
    intro new
    rw [new, unknown] at settled
    cases settled
  constructor
  · intro id below
    change ((s.redis.stream.add job).stateOf id).isSome = true
    rw [Stream.stateOf_add]
    split
    · rfl
    · rename_i other
      exact accounted.published id (Nat.lt_of_le_of_ne (Nat.le_of_lt_succ below) other)
  · intro id
    change Covered _ ((s.redis.stream.add job).stateOf id)
    rw [Stream.stateOf_add]
    split
    · rename_i new
      have none := accounted.covered id
      rw [new, unknown] at none
      rw [new]
      exact none
    · exact accounted.covered id
  · exact accounted.bounded
  · intro id settled
    change (s.redis.stream.add job).stateOf id = some .acknowledged at settled
    rw [Stream.stateOf_add] at settled
    split at settled
    · cases settled
    · exact accounted.settled id settled
  · exact fun id gone => kept (accounted.deleted id gone)
  · intro task member
    have before := accounted.justified task member
    cases task with
    | acknowledge receipt => exact before
    | delete receipt => exact kept before
    | scan _ _ _ => trivial
    | reject _ _ _ _ => trivial
    | process _ => trivial
  · exact accounted.letters
  · exact accounted.once

/-- A reply moves entries to the pending list and gives them to a new task. -/
theorem Accounted.begin (accounted : Accounted config s) {loop : Loop}
    {reply : Redis × List StreamEntry} (same : SameLetters s.redis reply.1)
    (moved : ∀ id, ((reply.2.map StreamEntry.id).count id = 0 ∧
        reply.1.stream.stateOf id = s.redis.stream.stateOf id) ∨
      ∃ n, reply.1.stream.stateOf id = some (.pending n) ∧
        (s.redis.stream.stateOf id).isSome = true ∧
        s.redis.stream.stateOf id ≠ some .acknowledged ∧
        s.granted id + waitingIn s.tasks id + (reply.2.map StreamEntry.id).count id ≤ n ∧
        s.granted id + (Task.scan loop reply.2 []).granted id ≤ config.grants) :
    Accounted config (s.begin loop reply) := by
  have single (id : Nat) : grantedBy [Task.scan loop reply.2 []] id +
      waitingIn [Task.scan loop reply.2 []] id = (reply.2.map StreamEntry.id).count id := by
    cases loop <;> simp [grantedBy, waitingIn, Task.granted, Task.waiting]
  have granted (id : Nat) : (s.begin loop reply).granted id =
      s.granted id + (Task.scan loop reply.2 []).granted id := by
    change s.handed.count id + grantedBy (s.tasks ++ [Task.scan loop reply.2 []]) id = _
    rw [grantedBy_append, Consumers.granted, Nat.add_assoc]
    rfl
  have kept {id : Nat} (settled : s.redis.stream.stateOf id = some .acknowledged) :
      reply.1.stream.stateOf id = some .acknowledged := by
    rcases moved id with ⟨_, still⟩ | ⟨_, _, _, open_, _⟩
    · rw [still, settled]
    · exact absurd settled open_
  constructor
  · intro id below
    change id < reply.1.stream.nextId at below
    rw [same.nextId] at below
    change (reply.1.stream.stateOf id).isSome = true
    rcases moved id with ⟨_, still⟩ | ⟨n, now, _⟩
    · rw [still]
      exact accounted.published id below
    · rw [now]
      rfl
  · intro id
    change Covered (_ + waitingIn (s.tasks ++ [Task.scan loop reply.2 []]) id)
      (reply.1.stream.stateOf id)
    have total := single id
    have one : grantedBy [Task.scan loop reply.2 []] id = (Task.scan loop reply.2 []).granted id :=
      rfl
    rw [granted, waitingIn_append]
    rcases moved id with ⟨none, still⟩ | ⟨n, now, _, _, fits, _⟩
    · rw [still]
      refine (accounted.covered id).of_le ?_
      omega
    · rw [now]
      change _ ≤ n
      omega
  · intro id
    rw [granted]
    rcases moved id with ⟨none, _⟩ | ⟨_, _, _, _, _, fits⟩
    · have total := single id
      have one : grantedBy [Task.scan loop reply.2 []] id =
        (Task.scan loop reply.2 []).granted id := rfl
      have before := accounted.bounded id
      omega
    · exact fits
  · intro id settled
    change reply.1.stream.stateOf id = some .acknowledged at settled
    change id ∈ s.processed ∨ id ∈ reply.1.stream.deadLetterIndex
    rw [same.index]
    rcases moved id with ⟨_, still⟩ | ⟨_, now, _⟩
    · rw [still] at settled
      exact accounted.settled id settled
    · rw [now] at settled
      cases settled
  · intro id gone
    change id ∈ reply.1.deleted at gone
    rw [same.deleted] at gone
    exact kept (accounted.deleted id gone)
  · intro task member
    rcases List.mem_append.mp member with old | new
    · have before := accounted.justified task old
      cases task with
      | acknowledge receipt => exact before
      | delete receipt => exact kept before
      | scan _ _ _ => trivial
      | reject _ _ _ _ => trivial
      | process _ => trivial
    · rw [List.mem_singleton.mp new]
      trivial
  · change reply.1.stream.deadLetters.map DeadLetter.sourceEntryId =
      reply.1.stream.deadLetterIndex
    rw [same.letters, same.index]
    exact accounted.letters
  · change reply.1.stream.deadLetterIndex.Nodup
    rw [same.index]
    exact accounted.once

theorem Accounted.receive (accounted : Accounted config s) (count : Nat) :
    Accounted config (s.begin .receive (Redis.readGroup count s.redis)) := by
  obtain ⟨same, states⟩ := readGroup_stateOf count s.redis
  refine accounted.begin same ?_
  intro id
  rcases states id with unchanged | ⟨one, unread, now⟩
  · exact Or.inl unchanged
  · have none := accounted.covered id
    rw [unread] at none
    change s.granted id + waitingIn s.tasks id = 0 at none
    have first : 1 ≤ config.grants := Nat.le_max_left _ _
    refine Or.inr ⟨1, now, by rw [unread]; rfl, by rw [unread]; simp, by omega, ?_⟩
    change s.granted id + (((Redis.readGroup count s.redis).2.map StreamEntry.id).count id + 0) ≤ _
    omega

theorem Accounted.reclaimStale (accounted : Accounted config s) (stale : List Nat) :
    Accounted config (s.begin .reclaimStale (Redis.autoClaimAll stale s.redis)) := by
  obtain ⟨same, states⟩ := autoClaimAll_stateOf stale s.redis accounted.deleted
  refine accounted.begin same ?_
  intro id
  rcases states id with unchanged | ⟨n, pending, now⟩
  · exact Or.inl unchanged
  · have covered := accounted.covered id
    rw [pending] at covered
    change s.granted id + waitingIn s.tasks id ≤ n at covered
    exact Or.inr ⟨_, now, by rw [pending]; rfl, by rw [pending]; simp, by omega,
      accounted.bounded id⟩

end Steps

section Continue

variable (config : RedisStreamsConfig) (redis : Redis) (id : Nat)

theorem decodeEntry_granted (loop : Loop) (entry : StreamEntry) (count : Nat)
    (batch : List StreamEntry) (jobs : List ReceivedCrawlJob) :
    (decodeEntry loop entry count batch jobs).granted id ≤
        (Task.scan loop batch jobs).granted id + [entry.id].count id ∧
      (decodeEntry loop entry count batch jobs).waiting id =
        (Task.scan loop batch jobs).waiting id := by
  unfold decodeEntry
  cases entry.job <;> cases loop <;>
    simp [Task.granted, Task.waiting, List.count_append, Nat.add_assoc]

theorem examineClaimed_granted (entry : StreamEntry) (count : Nat) (batch : List StreamEntry)
    (jobs : List ReceivedCrawlJob) :
    let task := examineClaimed config entry count batch jobs
    task.waiting id = (Task.scan .reclaimStale batch jobs).waiting id ∧
      (task.granted id = (Task.scan .reclaimStale batch jobs).granted id ∨
        (count < config.maxDeliveries ∧ task.granted id ≤
          (Task.scan .reclaimStale batch jobs).granted id + [entry.id].count id)) := by
  intro task
  by_cases exhausted : config.maxDeliveries ≤ count
  · simp only [task, examineClaimed, if_pos exhausted]
    exact ⟨rfl, Or.inl rfl⟩
  · simp only [task, examineClaimed, if_neg exhausted]
    obtain ⟨granted, waiting⟩ := decodeEntry_granted id .reclaimStale entry count batch jobs
    exact ⟨waiting, Or.inr ⟨Nat.lt_of_not_le exhausted, granted⟩⟩

theorem processes_granted (jobs : List ReceivedCrawlJob) :
    grantedBy (jobs.map Task.process) id = 0 ∧ waitingIn (jobs.map Task.process) id = 0 := by
  induction jobs with
  | nil => exact ⟨rfl, rfl⟩
  | cons job rest ih => exact ⟨(Nat.zero_add _).trans ih.1, (Nat.zero_add _).trans ih.2⟩

theorem grantedBy_single (task : Task) : grantedBy [task] id = task.granted id := by
  simp [grantedBy]

theorem waitingIn_single (task : Task) : waitingIn [task] id = task.waiting id := by
  simp [waitingIn]

/-- What a task holds after its command it held before; a claimed entry may
become a granted one, when it was not delivered too often. -/
theorem continue_held (task : Task) :
    task.returned.count id + grantedBy (task.continue redis config) id +
        waitingIn (task.continue redis config) id ≤ task.granted id + task.waiting id ∧
      (task.returned.count id + grantedBy (task.continue redis config) id ≤ task.granted id ∨
        ∃ n, redis.stream.stateOf id = some (.pending n) ∧ n < config.maxDeliveries ∧
          task.returned.count id + grantedBy (task.continue redis config) id ≤
            task.granted id + task.waiting id) := by
  cases task with
  | scan loop batch jobs =>
      cases batch with
      | nil =>
          obtain ⟨granted, waiting⟩ := processes_granted id jobs
          simp only [Task.continue, Task.returned, granted, waiting]
          cases loop <;> simp [Task.granted, Task.waiting]
      | cons entry batch =>
          cases loop with
          | receive =>
              obtain ⟨granted, waiting⟩ := decodeEntry_granted id .receive entry 1 batch jobs
              have split : (Task.scan .receive (entry :: batch) jobs).granted id =
                  (Task.scan .receive batch jobs).granted id + [entry.id].count id := by
                simp only [Task.granted, List.map_cons, List.count_cons, List.count_nil]
                omega
              have none : (Task.scan .receive batch jobs).waiting id = 0 := rfl
              simp only [Task.continue, Task.returned, grantedBy_single, waitingIn_single,
                List.count_nil, split]
              exact ⟨by omega, Or.inl (by omega)⟩
          | reclaimStale =>
              have split : (Task.scan .reclaimStale (entry :: batch) jobs).waiting id =
                  (Task.scan .reclaimStale batch jobs).waiting id + [entry.id].count id := by
                simp only [Task.waiting, List.map_cons, List.count_cons, List.count_nil]
                omega
              have same : (Task.scan .reclaimStale (entry :: batch) jobs).granted id =
                  (Task.scan .reclaimStale batch jobs).granted id := rfl
              cases counted : redis.stream.deliveryCount entry.id with
              | none =>
                  simp only [Task.continue, Task.returned, counted]
                  exact ⟨Nat.zero_le _, Or.inl (Nat.zero_le _)⟩
              | some count =>
                  obtain ⟨waiting, granted⟩ :=
                    examineClaimed_granted config id entry count batch jobs
                  simp only [Task.continue, Task.returned, counted, grantedBy_single,
                    waitingIn_single, List.count_nil, split, same]
                  rcases granted with unchanged | ⟨below, more⟩
                  · exact ⟨by omega, Or.inl (by omega)⟩
                  · refine ⟨by omega, ?_⟩
                    by_cases own : entry.id = id
                    · refine Or.inr ⟨count, ?_, below, by omega⟩
                      rw [← own]
                      exact Stream.deliveryCount_eq_some.mp counted
                    · have apart : [entry.id].count id = 0 := by
                        rw [List.count_singleton, if_neg (by simpa using own)]
                      exact Or.inl (by omega)
  | reject loop letter batch jobs =>
      have same : (Task.reject loop letter batch jobs).granted id =
          (Task.scan loop batch jobs).granted id ∧
          (Task.reject loop letter batch jobs).waiting id =
            (Task.scan loop batch jobs).waiting id := by
        cases loop <;> exact ⟨rfl, rfl⟩
      simp only [Task.continue, Task.returned, grantedBy_single, waitingIn_single, List.count_nil]
      exact ⟨by omega, Or.inl (by omega)⟩
  | process received => exact ⟨Nat.le_refl 0, Or.inl (Nat.le_refl 0)⟩
  | acknowledge receipt =>
      simp only [Task.continue, Task.returned]
      cases redis.stream.deliveryCount receipt <;>
        exact ⟨Nat.le_refl 0, Or.inl (Nat.le_refl 0)⟩
  | delete receipt => exact ⟨Nat.le_refl 0, Or.inl (Nat.le_refl 0)⟩

theorem continue_justified {processed : List Nat} {task : Task} :
    ∀ other ∈ task.continue redis config, other.justified (task.command redis) processed := by
  intro other member
  cases task with
  | scan loop batch jobs =>
      cases batch with
      | nil =>
          obtain ⟨received, _, rfl⟩ := List.mem_map.mp member
          trivial
      | cons entry batch =>
          have decoded (loop : Loop) (count : Nat) : (decodeEntry loop entry count batch
              jobs).justified (Task.command redis (.scan loop (entry :: batch) jobs)) processed := by
            unfold decodeEntry
            cases entry.job <;> trivial
          cases loop with
          | receive =>
              rw [List.mem_singleton.mp member]
              exact decoded .receive 1
          | reclaimStale =>
              simp only [Task.continue] at member
              split at member
              · rw [List.mem_singleton.mp member, examineClaimed]
                split
                · trivial
                · exact decoded .reclaimStale _
              · cases member
  | reject loop letter batch jobs =>
      rw [List.mem_singleton.mp member]
      trivial
  | process received =>
      rw [List.mem_singleton.mp member]
      trivial
  | acknowledge receipt =>
      simp only [Task.continue] at member
      split at member
      · rename_i count counted
        rw [List.mem_singleton.mp member]
        have pending := Stream.deliveryCount_eq_some.mp counted
        change (redis.stream.acknowledge receipt).stateOf receipt = some .acknowledged
        rw [Stream.acknowledge, Stream.stateOf_setState, if_pos rfl, pending]
        rfl
      · cases member
  | delete receipt => cases member

end Continue

section Runs

variable {config : RedisStreamsConfig} {s : Consumers}

theorem Accounted.advance (accounted : Accounted config s) (place : Nat) :
    Accounted config (s.advance config place) := by
  unfold Consumers.advance
  split
  · rename_i task found
    have tasks := split_at_place found
    have justified := accounted.justified task (List.mem_of_getElem? found)
    refine accounted.update tasks (command_settles justified) (fun _ => id) ?_ ?_ ?_
    · intro id
      have held := (continue_held config s.redis id task).1
      rw [List.count_append]
      omega
    · intro id
      rw [List.count_append]
      rcases (continue_held config s.redis id task).2 with le | ⟨n, pending, below, le⟩
      · exact Or.inl (by omega)
      · refine Or.inr ?_
        have covered := accounted.covered id
        rw [pending] at covered
        change s.granted id + waitingIn s.tasks id ≤ n at covered
        rw [Consumers.granted, tasks, grantedBy_append, waitingIn_append] at covered
        rw [grantedBy_append, grantedBy_append]
        have grants : config.maxDeliveries - 1 ≤ config.grants := Nat.le_max_right _ _
        change s.handed.count id + (grantedBy _ id + (task.granted id + grantedBy _ id)) +
          (waitingIn _ id + (task.waiting id + waitingIn _ id)) ≤ n at covered
        omega
    · exact continue_justified config s.redis
  · exact accounted

theorem Accounted.process (accounted : Accounted config s) (place : Nat) (ok : Bool) :
    Accounted config (s.process place ok) := by
  unfold Consumers.process
  split
  · rename_i received found
    have tasks := split_at_place found
    split
    · refine accounted.update tasks (Settles.refl s.redis _)
        (fun id member => List.mem_append_left _ member) ?_ ?_ ?_
      · exact fun id => Nat.le_refl _
      · exact fun id => Or.inl (Nat.le_refl _)
      · intro other member
        rw [List.mem_singleton.mp member]
        exact List.mem_append_right _ (by simp)
    · refine accounted.update tasks (Settles.refl s.redis _) (fun _ => id) ?_ ?_ (by simp)
      · exact fun id => Nat.le_refl _
      · exact fun id => Or.inl (Nat.le_refl _)
  · exact accounted

theorem Accounted.stop (accounted : Accounted config s) (place : Nat) (landed : Bool) :
    Accounted config (s.stop place landed) := by
  unfold Consumers.stop
  split
  · rename_i task found
    have tasks := split_at_place found
    have justified := accounted.justified task (List.mem_of_getElem? found)
    have settles : Settles s.redis (if landed then task.command s.redis else s.redis)
        s.processed := by
      split
      · exact command_settles justified
      · exact Settles.refl s.redis _
    refine accounted.update tasks settles (fun _ => id) ?_ ?_ (by simp)
    · intro id
      change s.handed.count id + 0 + 0 ≤ _
      omega
    · intro id
      refine Or.inl ?_
      change s.handed.count id + 0 ≤ _
      omega
  · exact accounted

theorem step_accounted (config : RedisStreamsConfig) (s : Consumers) (action : Action)
    (accounted : Accounted config s) : Accounted config (s.step config action) := by
  cases action with
  | publish job => exact accounted.publish (some job)
  | addInvalid => exact accounted.publish none
  | receive count => exact accounted.receive count
  | reclaimStale stale => exact accounted.reclaimStale stale
  | advance place => exact accounted.advance place
  | process place ok => exact accounted.process place ok
  | stop place landed => exact accounted.stop place landed

/-- In every state of every run of the consumers, whatever they are interrupted
at: a published entry is still in the stream and unread or pending, or its job
was processed and it is acknowledged, or it has a dead letter; no entry has two
dead letters; and none is handed to the workers more often than it may be
delivered. -/
theorem entries_accounted_for (config : RedisStreamsConfig) (actions : List Action) :
    let s := run (Consumers.step config) Consumers.initial actions
    (∀ id < s.redis.stream.nextId,
      (s.redis.stream.stateOf id = some .unread ∧ id ∉ s.redis.deleted) ∨
      (∃ n, s.redis.stream.stateOf id = some (.pending n) ∧ id ∉ s.redis.deleted) ∨
      (s.redis.stream.stateOf id = some .acknowledged ∧ id ∈ s.processed) ∨
      ∃ letter ∈ s.redis.stream.deadLetters, letter.sourceEntryId = id) ∧
    (s.redis.stream.deadLetters.map DeadLetter.sourceEntryId).Nodup ∧
    ∀ id, s.handed.count id ≤ config.maxDeliveries := by
  intro s
  have accounted : Accounted config s :=
    run_invariant (step_accounted config) Consumers.initial actions (initial_accounted config)
  have present {id : Nat} {state : EntryState} (found : s.redis.stream.stateOf id = some state)
      (live : state ≠ .acknowledged) : id ∉ s.redis.deleted := by
    intro gone
    rw [accounted.deleted id gone] at found
    exact live (Option.some.inj found).symm
  refine ⟨?_, ?_, ?_⟩
  · intro id below
    obtain ⟨state, found⟩ := Option.isSome_iff_exists.mp (accounted.published id below)
    cases state with
    | unread => exact Or.inl ⟨found, present found (by simp)⟩
    | pending n => exact Or.inr (Or.inl ⟨n, found, present found (by simp)⟩)
    | acknowledged =>
        rcases accounted.settled id found with done | lettered
        · exact Or.inr (Or.inr (Or.inl ⟨found, done⟩))
        · rw [← accounted.letters] at lettered
          obtain ⟨letter, member, same⟩ := List.mem_map.mp lettered
          exact Or.inr (Or.inr (Or.inr ⟨letter, member, same⟩))
  · rw [accounted.letters]
    exact accounted.once
  · intro id
    have bounded := accounted.bounded id
    have positive := config.maxDeliveries_pos
    simp only [Consumers.granted, RedisStreamsConfig.grants] at bounded
    omega

end Runs

end TechAtlas.Queue
