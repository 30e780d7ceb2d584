import TechAtlas.Library.Table
import TechAtlas.Scheduling

set_option autoImplicit false

/- `RedisStreamsCrawlJobQueue`: the crawl stream, its consumer group and the
dead-letter stream. -/
namespace TechAtlas.Queue

open Library

structure RedisStreamsConfig where
  maxDeliveries : Nat
  maxDeliveries_pos : 0 < maxDeliveries

def RedisStreamsConfig.default : RedisStreamsConfig where
  maxDeliveries := 5
  maxDeliveries_pos := by decide

/-- Where an entry stands in the consumer group. An acknowledged entry leaves
the pending list for good. -/
inductive EntryState
  | unread
  | pending (timesDelivered : Nat)
  | acknowledged
  deriving DecidableEq, Repr

/-- `job` is the decoded payload, absent when it is not a crawl job. -/
structure StreamEntry where
  id : Nat
  job : Option CrawlJobV1
  state : EntryState
  deriving DecidableEq, Repr

def StreamEntry.isLive (entry : StreamEntry) : Bool :=
  match entry.state with
  | .unread => true
  | .pending _ => true
  | .acknowledged => false

def StreamEntry.carries (jobId : Uuid) (entry : StreamEntry) : Bool :=
  entry.job.any fun job => job.jobId == jobId

def StreamEntry.withState (change : EntryState → EntryState) (entry : StreamEntry) : StreamEntry :=
  { entry with state := change entry.state }

inductive DeadLetterReason
  | deliveryLimitExceeded
  | invalidPayload
  deriving DecidableEq, Repr

structure DeadLetter where
  sourceEntryId : Nat
  payload : Option CrawlJobV1
  deliveryCount : Nat
  reason : DeadLetterReason
  deriving DecidableEq, Repr

/-- `XADD` draws increasing identifiers: no two entries share one, and `nextId`
is above them all. -/
structure Stream where
  entries : List StreamEntry
  nextId : Nat
  deadLetters : List DeadLetter
  deadLetterIndex : List Nat
  fresh : ∀ entry ∈ entries, entry.id < nextId
  unique : (entries.map StreamEntry.id).Nodup

namespace Stream

def empty : Stream where
  entries := []
  nextId := 0
  deadLetters := []
  deadLetterIndex := []
  fresh := by simp
  unique := List.nodup_nil

def find (stream : Stream) (entryId : Nat) : Option StreamEntry :=
  stream.entries.find? fun entry => entry.id == entryId

theorem mem_of_find {stream : Stream} {entryId : Nat} {entry : StreamEntry}
    (found : stream.find entryId = some entry) : entry ∈ stream.entries ∧ entry.id = entryId := by
  obtain ⟨member, same⟩ := find?_eq_some_mem found
  exact ⟨member, by simpa using same⟩

theorem entry_eq {stream : Stream} {left right : StreamEntry} (inLeft : left ∈ stream.entries)
    (inRight : right ∈ stream.entries) (same : left.id = right.id) : left = right :=
  eq_of_key_eq stream.unique inLeft inRight same

/-- `XADD`, by `publish` or by anything else that writes to the stream. -/
def add (stream : Stream) (job : Option CrawlJobV1) : Stream where
  entries := stream.entries ++ [{ id := stream.nextId, job := job, state := .unread }]
  nextId := stream.nextId + 1
  deadLetters := stream.deadLetters
  deadLetterIndex := stream.deadLetterIndex
  fresh := by
    intro entry member
    rw [List.mem_append, List.mem_singleton] at member
    rcases member with old | rfl
    · exact Nat.lt_succ_of_lt (stream.fresh entry old)
    · exact Nat.lt_succ_self _
  unique := by
    apply nodup_map_concat stream.unique
    intro old member
    exact Nat.ne_of_lt (stream.fresh old member)

def setState (stream : Stream) (entryId : Nat) (change : EntryState → EntryState) : Stream where
  entries := updateWhere (fun entry => entry.id == entryId) (StreamEntry.withState change)
    stream.entries
  nextId := stream.nextId
  deadLetters := stream.deadLetters
  deadLetterIndex := stream.deadLetterIndex
  fresh := by
    intro entry member
    rcases mem_updateWhere_cases member with ⟨old, _⟩ | ⟨old, inTable, _, rfl⟩
    · exact stream.fresh entry old
    · exact stream.fresh old inTable
  unique := by
    have keepsId : ∀ entry, (StreamEntry.withState change entry).id = entry.id := fun _ => rfl
    rw [updateWhere_map StreamEntry.id keepsId]
    exact stream.unique

/-- `XREADGROUP ... >`: the oldest unread entry, delivered for the first time. -/
def read (stream : Stream) : Option (Stream × StreamEntry) :=
  (stream.entries.find? fun entry => entry.state == .unread).map fun entry =>
    (stream.setState entry.id fun _ => .pending 1, entry)

def redelivered : EntryState → EntryState
  | .pending timesDelivered => .pending (timesDelivered + 1)
  | state => state

/-- `XAUTOCLAIM` of one entry; how long an entry has been idle is up to the
environment. -/
def autoClaim (stream : Stream) (entryId : Nat) : Option Stream :=
  match stream.find entryId with
  | some ⟨_, _, .pending _⟩ => some (stream.setState entryId redelivered)
  | _ => none

/-- `XPENDING` for one entry; `none` is `MissingPendingEntry`. -/
def deliveryCount (stream : Stream) (entryId : Nat) : Option Nat :=
  match stream.find entryId with
  | some ⟨_, _, .pending timesDelivered⟩ => some timesDelivered
  | _ => none

/-- `XACK`. -/
def acknowledge (stream : Stream) (entryId : Nat) : Stream :=
  stream.setState entryId fun
    | .pending _ => .acknowledged
    | state => state

/-- `DEAD_LETTER_SCRIPT`: the copy is written once, the entry is acknowledged
every time. -/
def deadLetter (stream : Stream) (letter : DeadLetter) : Stream :=
  let recorded :=
    if letter.sourceEntryId ∈ stream.deadLetterIndex then stream
    else { stream with
      deadLetters := stream.deadLetters ++ [letter]
      deadLetterIndex := stream.deadLetterIndex ++ [letter.sourceEntryId] }
  recorded.acknowledge letter.sourceEntryId

theorem deadLetter_entries (stream : Stream) (letter : DeadLetter) :
    (stream.deadLetter letter).entries = (stream.acknowledge letter.sourceEntryId).entries := by
  unfold deadLetter
  dsimp only
  split <;> rfl

theorem deadLetter_nextId (stream : Stream) (letter : DeadLetter) :
    (stream.deadLetter letter).nextId = stream.nextId := by
  unfold deadLetter
  dsimp only
  split <;> rfl

end Stream

end TechAtlas.Queue
