import TechAtlas.Queue
import TechAtlas.Store.Keys

set_option autoImplicit false

/- The crawl pipeline: the scheduler's outbox loop, the stream and the workers'
delivery loop over one store. A list of actions is one interleaving; a
component may stop between any two of its actions. -/
namespace TechAtlas.Crawl

open Library Store Queue

section State

/-- How far `scheduler_tick` has come with one pending job. -/
inductive PublicationPhase
  | picked
  | published
  | failed
  deriving DecidableEq, Repr

structure Publication where
  job : CrawlJobV1
  phase : PublicationPhase
  deriving DecidableEq, Repr

/-- How far a worker has come with one entry of the stream. -/
inductive DeliveryPhase
  | claimed
  | rejected (letter : DeadLetter)
  | received (job : CrawlJobV1)
  | ready (job : CrawlJobV1)
  | processed (job : CrawlJobV1)
  deriving DecidableEq, Repr

def DeliveryPhase.job : DeliveryPhase → Option CrawlJobV1
  | .claimed => none
  | .rejected _ => none
  | .received job => some job
  | .ready job => some job
  | .processed job => some job

structure Delivery where
  entryId : Nat
  phase : DeliveryPhase
  deriving DecidableEq, Repr

/-- The dead letter the worker is about to write. -/
def Delivery.letter (delivery : Delivery) : Option DeadLetter :=
  match delivery.phase with
  | .rejected letter => some letter
  | _ => none

structure Pipeline where
  db : Database
  stream : Stream
  publications : List Publication
  deliveries : List Delivery

def Pipeline.initial (catalogue : Catalogue) : Pipeline where
  db := Database.initial catalogue
  stream := Stream.empty
  publications := []
  deliveries := []

end State

section Actions

/-- A natural number names a publication or a delivery by its place. -/
inductive Action
  | store (call : Call)
  | recoverStaleAttempts (now : Time) (staleAfter : Duration) (limit : Nat)
      (settings : SchedulerSettings) (fresh : Uuid → FreshJob)
  | pick (now : Time) (limit : Nat)
  | publish (place : Nat)
  | failPublish (place : Nat) (landed : Bool)
  | markPublished (place : Nat) (now : Time)
  | recordPublishFailure (place : Nat) (now : Time) (settings : SchedulerSettings)
  | abandonPublication (place : Nat)
  | addInvalid
  | receive
  | reclaim (entryId : Nat)
  | examine (place : Nat)
  | deadLetter (place : Nat)
  | claim (place : Nat) (startedAt : Time)
  | succeed (place : Nat) (record : SuccessfulCrawlRecord) (fresh : FreshSnapshot)
  | fail (place : Nat) (failure : CrawlFailure) (finishedAt : Time) (settings : SchedulerSettings)
      (fresh : FreshJob)
  | acknowledge (place : Nat)
  | abandonDelivery (place : Nat)

variable (crate : UrlCrate) (config : RedisStreamsConfig) (s : Pipeline)

def Pipeline.setPublication (place : Nat) (publication : Publication) : Pipeline :=
  { s with publications := s.publications.set place publication }

def Pipeline.dropPublication (place : Nat) : Pipeline :=
  { s with publications := s.publications.eraseIdx place }

def Pipeline.setDelivery (place : Nat) (delivery : Delivery) : Pipeline :=
  { s with deliveries := s.deliveries.set place delivery }

def Pipeline.dropDelivery (place : Nat) : Pipeline :=
  { s with deliveries := s.deliveries.eraseIdx place }

def Pipeline.pick (now : Time) (limit : Nat) : Pipeline :=
  match pendingPublications s.db now limit with
  | .ok pending =>
      { s with publications := s.publications ++ pending.map fun row => ⟨row.job, .picked⟩ }
  | .error _ => s

def Pipeline.publish (place : Nat) : Pipeline :=
  match s.publications[place]? with
  | some ⟨job, .picked⟩ =>
      { s with stream := s.stream.add (some job) }.setPublication place ⟨job, .published⟩
  | _ => s

/-- A publication that times out may have reached the stream. -/
def Pipeline.failPublish (place : Nat) (landed : Bool) : Pipeline :=
  match s.publications[place]? with
  | some ⟨job, .picked⟩ =>
      let stream := if landed then s.stream.add (some job) else s.stream
      { s with stream := stream }.setPublication place ⟨job, .failed⟩
  | _ => s

def Pipeline.markPublished (place : Nat) (now : Time) : Pipeline :=
  match s.publications[place]? with
  | some ⟨job, .published⟩ =>
      { s with db := exec crate s.db (.markPublished job.jobId now) }.dropPublication place
  | _ => s

def Pipeline.recordPublishFailure (place : Nat) (now : Time) (settings : SchedulerSettings) :
    Pipeline :=
  match s.publications[place]? with
  | some ⟨job, .failed⟩ =>
      { s with db := exec crate s.db (.recordPublishFailure job.jobId now settings) }.dropPublication
        place
  | _ => s

/-- `decode_entry`: what a worker makes of a delivered entry. -/
def decodeEntry (entry : StreamEntry) (deliveryCount : Nat) : DeliveryPhase :=
  match entry.job with
  | some job => .received job
  | none => .rejected {
      sourceEntryId := entry.id
      payload := none
      deliveryCount := deliveryCount
      reason := .invalidPayload }

def Pipeline.receive : Pipeline :=
  match s.stream.read with
  | some (stream, entry) =>
      { s with
        stream := stream
        deliveries := s.deliveries ++ [⟨entry.id, decodeEntry entry 1⟩] }
  | none => s

def Pipeline.reclaim (entryId : Nat) : Pipeline :=
  match s.stream.autoClaim entryId with
  | some stream =>
      { s with stream := stream, deliveries := s.deliveries ++ [⟨entryId, .claimed⟩] }
  | none => s

/-- The loop body of `reclaim_stale`, up to the dead letter. -/
def examined (entry : StreamEntry) (deliveryCount : Nat) : DeliveryPhase :=
  if config.maxDeliveries ≤ deliveryCount then
    .rejected {
      sourceEntryId := entry.id
      payload := entry.job
      deliveryCount := deliveryCount
      reason := .deliveryLimitExceeded }
  else decodeEntry entry deliveryCount

def Pipeline.examine (place : Nat) : Pipeline :=
  match s.deliveries[place]? with
  | some ⟨entryId, .claimed⟩ =>
      match s.stream.find entryId, s.stream.deliveryCount entryId with
      | some entry, some deliveryCount =>
          s.setDelivery place ⟨entryId, examined config entry deliveryCount⟩
      | _, _ => s.dropDelivery place
  | _ => s

def Pipeline.deadLetter (place : Nat) : Pipeline :=
  match s.deliveries[place]?.bind Delivery.letter with
  | some letter => { s with stream := s.stream.deadLetter letter }.dropDelivery place
  | none => s

/-- The first step of `WorkerProcessor::process`; an error leaves the entry
pending. -/
def Pipeline.claim (place : Nat) (startedAt : Time) : Pipeline :=
  match s.deliveries[place]? with
  | some ⟨entryId, .received job⟩ =>
      match claimAttempt crate s.db job startedAt with
      | .ok (db, .ready _) => { s with db := db }.setDelivery place ⟨entryId, .ready job⟩
      | .ok (db, .terminal) => { s with db := db }.setDelivery place ⟨entryId, .processed job⟩
      | .error _ => s.dropDelivery place
  | _ => s

def Pipeline.succeed (place : Nat) (record : SuccessfulCrawlRecord) (fresh : FreshSnapshot) :
    Pipeline :=
  match s.deliveries[place]? with
  | some ⟨entryId, .ready job⟩ =>
      match recordSuccess s.db job record fresh with
      | .ok db => { s with db := db }.setDelivery place ⟨entryId, .processed job⟩
      | .error _ => s.dropDelivery place
  | _ => s

def Pipeline.fail (place : Nat) (failure : CrawlFailure) (finishedAt : Time)
    (settings : SchedulerSettings) (fresh : FreshJob) : Pipeline :=
  match s.deliveries[place]? with
  | some ⟨entryId, .ready job⟩ =>
      match recordFailure s.db job failure finishedAt settings fresh with
      | .ok db => { s with db := db }.setDelivery place ⟨entryId, .processed job⟩
      | .error _ => s.dropDelivery place
  | _ => s

/-- Only a processed delivery is acknowledged. -/
def Pipeline.acknowledge (place : Nat) : Pipeline :=
  match s.deliveries[place]? with
  | some ⟨entryId, .processed _⟩ =>
      { s with stream := s.stream.acknowledge entryId }.dropDelivery place
  | _ => s

/-- The outbox reports are the scheduler's alone. -/
def Pipeline.store (call : Call) : Pipeline :=
  if call.isPublication then s else { s with db := exec crate s.db call }

def Pipeline.step : Action → Pipeline
  | .store call => s.store crate call
  | .recoverStaleAttempts now staleAfter limit settings fresh =>
      { s with db := (recoverStaleAttempts s.db now staleAfter limit settings fresh).1 }
  | .pick now limit => s.pick now limit
  | .publish place => s.publish place
  | .failPublish place landed => s.failPublish place landed
  | .markPublished place now => s.markPublished crate place now
  | .recordPublishFailure place now settings => s.recordPublishFailure crate place now settings
  | .abandonPublication place => s.dropPublication place
  | .addInvalid => { s with stream := s.stream.add none }
  | .receive => s.receive
  | .reclaim entryId => s.reclaim entryId
  | .examine place => s.examine config place
  | .deadLetter place => s.deadLetter place
  | .claim place startedAt => s.claim crate place startedAt
  | .succeed place record fresh => s.succeed place record fresh
  | .fail place failure finishedAt settings fresh => s.fail place failure finishedAt settings fresh
  | .acknowledge place => s.acknowledge place
  | .abandonDelivery place => s.dropDelivery place

end Actions

end TechAtlas.Crawl
