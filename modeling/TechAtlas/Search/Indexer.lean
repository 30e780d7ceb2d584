import TechAtlas.Store.SearchIndex
import TechAtlas.Store.Keys

set_option autoImplicit false

/- The indexer loops over one store and one search index. A document is stamped
with the number of successful crawls its domain had when its projection was
read; requests to the index may land long after their sender has given up. -/
namespace TechAtlas.Search

open Library Store

/-- The committed `record_success` transactions of the domain: each inserts one
snapshot. -/
def successes (db : Database) (domainId : Uuid) : Nat :=
  db.snapshots.countP fun snapshot => snapshot.domainId == domainId

structure Document where
  projection : SearchDomainProjection
  readAfter : Nat
  deriving DecidableEq

/-- How far an indexer has come with one job. -/
inductive Phase
  | claimed
  | loading (domain : ProjectedDomain) (readAfter : Nat)
  | sent (document : Document)
  | written (document : Document)
  | indexed (document : Option Document)
  | failed (inFlight : Option Document)
  | gone (document : Document)
  deriving DecidableEq

/-- The number of successes before the projection was read. -/
def Phase.readAfter : Phase → Option Nat
  | .claimed => none
  | .loading _ readAfter => some readAfter
  | .sent document => some document.readAfter
  | .written document => some document.readAfter
  | .indexed document => document.map Document.readAfter
  | .failed document => document.map Document.readAfter
  | .gone document => some document.readAfter

/-- `claim` numbers the claims of the domain's row. -/
structure Writer where
  job : SearchIndexJob
  claim : Nat
  phase : Phase
  deriving DecidableEq

def Writer.key (writer : Writer) : Uuid × Nat := (writer.job.domainId, writer.claim)

structure Indexing where
  db : Database
  index : Uuid → Option Document
  claimNumber : Uuid → Nat
  writers : List Writer

def Indexing.initial (catalogue : Catalogue) : Indexing where
  db := Database.initial catalogue
  index := fun _ => none
  claimNumber := fun _ => 0
  writers := []

inductive Action
  | store (call : Call)
  | claimReady (now : Time) (lease : Duration) (limit : Nat)
  | loadDomain (place : Nat)
  | loadTechnologies (place : Nat)
  | failLoad (place : Nat)
  | land (place : Nat)
  | respond (place : Nat)
  | failUpsert (place : Nat)
  | complete (place : Nat)
  | fail (place : Nat) (now : Time) (retryAfter : Duration) (maxAttempts : Nat) (summary : Text)
  | stop (place : Nat)

section Steps

variable (s : Indexing)

def Indexing.setPhase (place : Nat) (writer : Writer) (phase : Phase) : Indexing :=
  { s with writers := s.writers.set place { writer with phase := phase } }

def Indexing.drop (place : Nat) : Indexing :=
  { s with writers := s.writers.eraseIdx place }

/-- The indexer turns to other work; a request that is still in flight stays. -/
def Indexing.release (place : Nat) (writer : Writer) (inFlight : Option Document) : Indexing :=
  match inFlight with
  | some document => s.setPhase place writer (.gone document)
  | none => s.drop place

/-- Every claimed row starts a new claim of its domain; a batch that does not
decode has no indexer. -/
def Indexing.claimReady (now : Time) (lease : Duration) (limit : Nat) : Indexing :=
  let (db, claimed, result) := Store.claimReady s.db now lease limit
  let claimNumber := fun domainId =>
    if claimed.any fun row => row.domainId == domainId then s.claimNumber domainId + 1
    else s.claimNumber domainId
  let jobs := match result with
    | .ok jobs => jobs
    | .error _ => []
  { s with
    db := db
    claimNumber := claimNumber
    writers := s.writers ++ jobs.map fun job => ⟨job, claimNumber job.domainId, .claimed⟩ }

/-- A domain without a projection has nothing to write. -/
def Indexing.loadDomain (place : Nat) : Indexing :=
  match s.writers[place]? with
  | some ⟨job, claim, .claimed⟩ =>
      match projectedDomain s.db job.domainId with
      | some domain => s.setPhase place ⟨job, claim, .claimed⟩
          (.loading domain (successes s.db job.domainId))
      | none => s.setPhase place ⟨job, claim, .claimed⟩ (.indexed none)
  | _ => s

def Indexing.loadTechnologies (collation : Collation) (place : Nat) : Indexing :=
  match s.writers[place]? with
  | some ⟨job, claim, .loading domain readAfter⟩ =>
      let projection : SearchDomainProjection := {
        domainId := job.domainId
        domain := domain
        technologies := projectedTechnologies collation s.db job.domainId }
      s.setPhase place ⟨job, claim, .loading domain readAfter⟩ (.sent ⟨projection, readAfter⟩)
  | _ => s

def Indexing.failLoad (place : Nat) : Indexing :=
  match s.writers[place]? with
  | some ⟨job, claim, .claimed⟩ => s.setPhase place ⟨job, claim, .claimed⟩ (.failed none)
  | some ⟨job, claim, .loading domain readAfter⟩ =>
      s.setPhase place ⟨job, claim, .loading domain readAfter⟩ (.failed none)
  | _ => s

def Indexing.write (domainId : Uuid) (document : Document) : Indexing :=
  { s with index := Function.update s.index domainId (some document) }

/-- The index executes a request, whatever its sender does by then. -/
def Indexing.land (place : Nat) : Indexing :=
  match s.writers[place]? with
  | some ⟨job, claim, .sent document⟩ =>
      (s.write job.domainId document).setPhase place ⟨job, claim, .sent document⟩
        (.written document)
  | some ⟨job, claim, .failed (some document)⟩ =>
      (s.write job.domainId document).setPhase place ⟨job, claim, .failed (some document)⟩
        (.failed none)
  | some ⟨job, _, .gone document⟩ => (s.write job.domainId document).drop place
  | _ => s

def Indexing.respond (place : Nat) : Indexing :=
  match s.writers[place]? with
  | some ⟨job, claim, .written document⟩ =>
      s.setPhase place ⟨job, claim, .written document⟩ (.indexed (some document))
  | _ => s

def Indexing.failUpsert (place : Nat) : Indexing :=
  match s.writers[place]? with
  | some ⟨job, claim, .sent document⟩ =>
      s.setPhase place ⟨job, claim, .sent document⟩ (.failed (some document))
  | some ⟨job, claim, .written document⟩ =>
      s.setPhase place ⟨job, claim, .written document⟩ (.failed none)
  | _ => s

def Indexing.complete (place : Nat) : Indexing :=
  match s.writers[place]? with
  | some ⟨job, _, .indexed _⟩ =>
      match Store.complete s.db job with
      | .ok db => { s with db := db }.drop place
      | .error _ => s.drop place
  | _ => s

def Indexing.fail (place : Nat) (now : Time) (retryAfter : Duration) (maxAttempts : Nat)
    (summary : Text) : Indexing :=
  match s.writers[place]? with
  | some ⟨job, claim, .failed inFlight⟩ =>
      match Store.fail s.db job now retryAfter maxAttempts summary with
      | .ok db => { s with db := db }.release place ⟨job, claim, .failed inFlight⟩ inFlight
      | .error _ => s.release place ⟨job, claim, .failed inFlight⟩ inFlight
  | _ => s

def Indexing.stop (place : Nat) : Indexing :=
  match s.writers[place]? with
  | some ⟨job, claim, .sent document⟩ =>
      s.release place ⟨job, claim, .sent document⟩ (some document)
  | some ⟨job, claim, .failed inFlight⟩ => s.release place ⟨job, claim, .failed inFlight⟩ inFlight
  | some ⟨_, _, .gone _⟩ => s
  | some _ => s.drop place
  | none => s

def Indexing.step (crate : UrlCrate) (collation : Collation) : Action → Indexing
  | .store call => { s with db := exec crate s.db call }
  | .claimReady now lease limit => s.claimReady now lease limit
  | .loadDomain place => s.loadDomain place
  | .loadTechnologies place => s.loadTechnologies collation place
  | .failLoad place => s.failLoad place
  | .land place => s.land place
  | .respond place => s.respond place
  | .failUpsert place => s.failUpsert place
  | .complete place => s.complete place
  | .fail place now retryAfter maxAttempts summary =>
      s.fail place now retryAfter maxAttempts summary
  | .stop place => s.stop place

end Steps

end TechAtlas.Search
