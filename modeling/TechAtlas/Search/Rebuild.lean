import TechAtlas.Search.Freshness

set_option autoImplicit false

/- `rebuild_search_index` empties the index and fills it again from one pass over
the domains, while indexers go on writing to it. A request whose sender has given
up may still be executed. -/
namespace TechAtlas.Search

open Library Store

section Model

/-- The requests that `recreate` and `upsert` send and wait for. -/
inductive Request
  | delete
  | create
  | settings
  | upsert (documents : List Document)
  deriving DecidableEq

def Document.domainId (document : Document) : Uuid := document.projection.domainId

def writeAll (index : Uuid → Option Document) (documents : List Document) :
    Uuid → Option Document :=
  documents.foldl (fun index document =>
    Function.update index document.domainId (some document)) index

/-- `present` says whether the index exists. -/
structure SearchIndex where
  present : Bool
  documents : Uuid → Option Document

/-- The index executes a task: `none` is a failed one. Documents and settings sent to
a missing index create it. -/
def SearchIndex.execute (index : SearchIndex) : Request → Option SearchIndex
  | .delete => if index.present then some ⟨false, fun _ => none⟩ else none
  | .create => if index.present then none else some { index with present := true }
  | .settings => some { index with present := true }
  | .upsert documents => some ⟨true, writeAll index.documents documents⟩

/-- `[T]::chunks`. -/
def chunks {α : Type} (size : Nat) (xs : List α) : List (List α) :=
  (List.range ((xs.length + size - 1) / size)).map fun n => (xs.drop (n * size)).take size

/-- `SELECT id FROM domains WHERE archived_at IS NULL ORDER BY canonical_domain`. -/
def activeDomainIds (collation : Collation) (db : Database) : List Uuid :=
  ((db.domains.filter DomainRow.isActive).insertionSort fun left right =>
    collation.le left.canonicalDomain right.canonicalDomain).map DomainRow.id

/-- How far the rebuild has come. Each of the first and of the last phases has sent
its request and waits for the task. -/
inductive RebuildPhase
  | idle (complete : Bool)
  | deleting
  | creating
  | configuring
  | listing
  | reading (domainIds : List Uuid) (documents : List Document)
  | loading (domainId : Uuid) (domain : ProjectedDomain) (readAfter : Nat)
      (domainIds : List Uuid) (documents : List Document)
  | upserting (chunk : List Document) (rest : List (List Document))
  deriving DecidableEq

def RebuildPhase.request : RebuildPhase → Option Request
  | .deleting => some .delete
  | .creating => some .create
  | .configuring => some .settings
  | .upserting chunk _ => some (.upsert chunk)
  | _ => none

/-- The loop over the chunks ends the rebuild. -/
def RebuildPhase.send : List (List Document) → RebuildPhase
  | [] => .idle true
  | chunk :: rest => .upserting chunk rest

/-- The phase after the request's task has succeeded. -/
def RebuildPhase.succeeded : RebuildPhase → RebuildPhase
  | .deleting => .creating
  | .creating => .configuring
  | .configuring => .listing
  | .upserting _ rest => .send rest
  | phase => phase

/-- The requests of rebuilds that have given up are the strays. -/
structure Rebuilding where
  indexing : Indexing
  present : Bool
  phase : RebuildPhase
  strays : List Request

/-- Nothing has been crawled, so there is nothing to rebuild. -/
def Rebuilding.initial (catalogue : Catalogue) : Rebuilding where
  indexing := Indexing.initial catalogue
  present := false
  phase := .idle true
  strays := []

inductive RebuildAction
  | indexing (action : Action)
  | start
  | land
  | listDomains
  | loadDomain
  | loadTechnologies
  | send
  | giveUp (inFlight : Bool)
  | landStray (place : Nat)

/-- The document that an indexer's request in flight carries. -/
def Indexing.landing (s : Indexing) (place : Nat) : Option (Uuid × Document) :=
  match s.writers[place]? with
  | some ⟨job, _, .sent document⟩ => some (job.domainId, document)
  | some ⟨job, _, .failed (some document)⟩ => some (job.domainId, document)
  | some ⟨job, _, .gone document⟩ => some (job.domainId, document)
  | _ => none

def Action.landing (s : Indexing) : Action → Option (Uuid × Document)
  | .land place => s.landing place
  | _ => none

section Steps

variable (r : Rebuilding)

def Rebuilding.searchIndex : SearchIndex := ⟨r.present, r.indexing.index⟩

def Rebuilding.setIndex (index : SearchIndex) : Rebuilding :=
  { r with
    indexing := { r.indexing with index := index.documents }
    present := index.present }

/-- `should_delete_existing_index`: a missing index is not deleted. -/
def Rebuilding.start : Rebuilding :=
  match r.phase with
  | .idle _ => { r with phase := if r.present then .deleting else .creating }
  | _ => r

/-- The index executes the rebuild's request, and the rebuild reads the task's status. -/
def Rebuilding.land : Rebuilding :=
  match r.phase.request with
  | some request =>
      match r.searchIndex.execute request with
      | some index => { r.setIndex index with phase := r.phase.succeeded }
      | none => { r with phase := .idle false }
  | none => r

def Rebuilding.listDomains (collation : Collation) : Rebuilding :=
  match r.phase with
  | .listing => { r with phase := .reading (activeDomainIds collation r.indexing.db) [] }
  | _ => r

def Rebuilding.loadDomain : Rebuilding :=
  match r.phase with
  | .reading (domainId :: domainIds) documents =>
      match projectedDomain r.indexing.db domainId with
      | some domain => { r with
          phase := .loading domainId domain (successes r.indexing.db domainId) domainIds documents }
      | none => { r with phase := .reading domainIds documents }
  | _ => r

def Rebuilding.loadTechnologies (collation : Collation) : Rebuilding :=
  match r.phase with
  | .loading domainId domain readAfter domainIds documents =>
      let projection : SearchDomainProjection := {
        domainId := domainId
        domain := domain
        technologies := projectedTechnologies collation r.indexing.db domainId }
      { r with phase := .reading domainIds (documents ++ [⟨projection, readAfter⟩]) }
  | _ => r

/-- Every domain has been read; `chunks(100)`. -/
def Rebuilding.send : Rebuilding :=
  match r.phase with
  | .reading [] documents => { r with phase := .send (chunks 100 documents) }
  | _ => r

/-- The rebuild exits with an error; a request it has sent stays in flight. -/
def Rebuilding.giveUp (inFlight : Bool) : Rebuilding :=
  match r.phase with
  | .idle _ => r
  | phase => { r with
      phase := .idle false
      strays := r.strays ++ if inFlight then phase.request.toList else [] }

def Rebuilding.landStray (place : Nat) : Rebuilding :=
  match r.strays[place]? with
  | some request =>
      { r.setIndex ((r.searchIndex.execute request).getD r.searchIndex) with
        strays := r.strays.eraseIdx place }
  | none => r

def Rebuilding.step (crate : UrlCrate) (collation : Collation) : RebuildAction → Rebuilding
  | .indexing action => { r with
      indexing := r.indexing.step crate collation action
      present := r.present || (action.landing r.indexing).isSome }
  | .start => r.start
  | .land => r.land
  | .listDomains => r.listDomains collation
  | .loadDomain => r.loadDomain
  | .loadTechnologies => r.loadTechnologies collation
  | .send => r.send
  | .giveUp inFlight => r.giveUp inFlight
  | .landStray place => r.landStray place

end Steps

end Model

section Requests

variable {index next : SearchIndex} {documents : List Document} {domainId : Uuid}

theorem chunks_flatten {α : Type} {size : Nat} (positive : 0 < size) (xs : List α) :
    (chunks size xs).flatten = xs := by
  have counted : ∀ count, ((List.range count).map fun n =>
      (xs.drop (n * size)).take size).flatten = xs.take (count * size) := by
    intro count
    induction count with
    | zero => simp
    | succ count ih =>
      rw [List.range_succ, List.map_append, List.flatten_append, ih, Nat.succ_mul, List.take_add]
      simp
  rw [chunks, counted]
  apply List.take_of_length_le
  have split := Nat.div_add_mod (xs.length + size - 1) size
  have small := Nat.mod_lt (xs.length + size - 1) positive
  rw [Nat.mul_comm]
  omega

theorem writeAll_cases (index : Uuid → Option Document) (documents : List Document)
    (domainId : Uuid) :
    (domainId ∉ documents.map Document.domainId ∧
        writeAll index documents domainId = index domainId) ∨
      ∃ document ∈ documents, document.domainId = domainId ∧
        writeAll index documents domainId = some document := by
  induction documents generalizing index with
  | nil => exact Or.inl ⟨List.not_mem_nil, rfl⟩
  | cons first rest ih =>
    rcases ih (Function.update index first.domainId (some first)) with ⟨absent, kept⟩ | found
    · by_cases same : domainId = first.domainId
      · refine Or.inr ⟨first, List.mem_cons_self, same.symm, ?_⟩
        rw [writeAll, List.foldl_cons, ← writeAll, kept, same, Function.update_self]
      · refine Or.inl ⟨?_, ?_⟩
        · rw [List.map_cons, List.mem_cons]
          exact not_or.mpr ⟨same, absent⟩
        · rw [writeAll, List.foldl_cons, ← writeAll, kept, Function.update_of_ne same]
    · obtain ⟨document, member, same, written⟩ := found
      exact Or.inr ⟨document, List.mem_cons_of_mem _ member, same, written⟩

/-- Of documents of different domains each one is shown. -/
theorem writeAll_of_mem (index : Uuid → Option Document) {document : Document}
    (member : document ∈ documents) (distinct : (documents.map Document.domainId).Nodup) :
    writeAll index documents document.domainId = some document := by
  rcases writeAll_cases index documents document.domainId with ⟨absent, _⟩ | found
  · exact absurd (List.mem_map.mpr ⟨document, member, rfl⟩) absent
  · obtain ⟨other, inDocuments, same, written⟩ := found
    rw [written, eq_of_key_eq distinct inDocuments member same]

end Requests

section Indexers

variable {crate : UrlCrate} {collation : Collation} {s : Indexing} {writer : Writer}

def Indexing.showing (s : Indexing) (index : Uuid → Option Document) : Indexing :=
  { s with index := index }

/-- The index after a document may have landed. -/
def placed (index : Uuid → Option Document) : Option (Uuid × Document) → Uuid → Option Document
  | some (domainId, document) => Function.update index domainId (some document)
  | none => index

/-- The indexers never read the index: over any other one they do the same. -/
theorem step_showing (crate : UrlCrate) (collation : Collation) (s : Indexing)
    (index : Uuid → Option Document) (action : Action) :
    (s.showing index).step crate collation action =
      (s.step crate collation action).showing (placed index (action.landing s)) := by
  cases action with
  | store call => rfl
  | claimReady now lease limit => rfl
  | loadDomain place =>
      simp only [Indexing.step, Indexing.loadDomain, Action.landing, placed]
      simp only [Indexing.showing]
      split
      · split <;> rfl
      · rfl
  | loadTechnologies place =>
      simp only [Indexing.step, Indexing.loadTechnologies, Action.landing, placed]
      simp only [Indexing.showing]
      split <;> rfl
  | failLoad place =>
      simp only [Indexing.step, Indexing.failLoad, Action.landing, placed]
      simp only [Indexing.showing]
      split <;> rfl
  | land place =>
      simp only [Indexing.step, Indexing.land, Action.landing, Indexing.landing, Indexing.showing]
      cases s.writers[place]? with
      | none => rfl
      | some writer =>
          obtain ⟨job, claim, phase⟩ := writer
          cases phase with
          | failed inFlight => cases inFlight <;> rfl
          | _ => rfl
  | respond place =>
      simp only [Indexing.step, Indexing.respond, Action.landing, placed]
      simp only [Indexing.showing]
      split <;> rfl
  | failUpsert place =>
      simp only [Indexing.step, Indexing.failUpsert, Action.landing, placed]
      simp only [Indexing.showing]
      split <;> rfl
  | complete place =>
      simp only [Indexing.step, Indexing.complete, Action.landing, placed]
      simp only [Indexing.showing]
      split
      · split <;> rfl
      · rfl
  | fail place now retryAfter maxAttempts summary =>
      simp only [Indexing.step, Indexing.fail, Indexing.release, Action.landing, placed]
      simp only [Indexing.showing]
      split
      · split <;> split <;> rfl
      · rfl
  | stop place =>
      simp only [Indexing.step, Indexing.stop, Indexing.release, Action.landing, placed]
      simp only [Indexing.showing]
      split
      · rfl
      · split <;> rfl
      · rfl
      · rfl
      · rfl

/-- The documents in flight and in the index are of registered domains, and none of
them claims a success that is yet to come. -/
structure Bounded (s : Indexing) : Prop where
  paired : s.db.domains.map DomainRow.id = s.db.policies.map PolicyRow.domainId
  writers : ∀ writer ∈ s.writers, ∀ readAfter ∈ writer.phase.readAfter,
    readAfter ≤ successes s.db writer.job.domainId
  shown : ∀ domainId document, s.index domainId = some document →
    domainId ∈ s.db.policies.map PolicyRow.domainId ∧
      document.readAfter ≤ successes s.db domainId

theorem exec_paired {db : Database} (keys : Keys db) (call : Call)
    (paired : db.domains.map DomainRow.id = db.policies.map PolicyRow.domainId) :
    (exec crate db call).domains.map DomainRow.id =
      (exec crate db call).policies.map PolicyRow.domainId := by
  refine And.right (exec_invariant
    (P := fun db => db.domains.map DomainRow.id = db.policies.map PolicyRow.domainId) ?_ ?_ ?_
    db call ⟨keys, paired⟩)
  · intro names before after move _ paired
    cases move with
    | reserve _ _ success =>
        obtain ⟨_, _, rfl⟩ := reserveDomain_eq_ok success
        rwa [updateWhere_map _ fun _ => by rfl]
    | claim _ success =>
        obtain ⟨_, rfl⟩ := updateAttempt_eq_some.mp success
        exact paired
    | retry success =>
        obtain ⟨_, _, _, _, _, _, _, _, _, _, _, rfl⟩ := retryTerminalAttempt_eq_ok success
        rwa [updateWhere_map _ fun _ => by rfl]
    | reschedule keeps same =>
        rw [same.domains, same.policies]
        exact paired.trans (updateWhere_map _ keeps.domainId _).symm
    | register _ _ _ active _ _ same =>
        rw [same.domains, same.policies, List.map_append, List.map_append, paired,
          List.map_singleton, List.map_singleton, active.1]
  · intro records bare before after resolution _ paired
    cases resolution with
    | succeed _ _ success =>
        obtain ⟨_, _, _, _, _, _, rfl⟩ := persistSuccess_eq_ok success
        rwa [updateWhere_map _ fun _ => by rfl]
    | bare _ success =>
        obtain ⟨_, rfl⟩ := recordSucceeded_eq_ok success
        rwa [updateWhere_map _ fun _ => by rfl]
    | fail _ success =>
        obtain ⟨_, ⟨_, _, _, _, rfl⟩ | ⟨_, rfl⟩⟩ := recordFailed_cases success <;>
          rwa [updateWhere_map _ fun _ => by rfl]
  · intro before row paired
    exact paired

theorem exec_successes {db : Database} (keys : Keys db) (call : Call) (domainId : Uuid) :
    successes db domainId ≤ successes (exec crate db call) domainId := by
  rcases @exec_recorded crate db keys call with same | ⟨recorded, _, _, success⟩
  · exact Nat.le_of_eq (successes_of_same same domainId).symm
  · obtain ⟨row, _, snapshots⟩ := success.snapshots
    rw [successes, successes, snapshots, List.countP_append]
    exact Nat.le_add_right _ _

theorem Bounded.rephase (bounded : Bounded s) {place : Nat}
    (found : s.writers[place]? = some writer) {phase : Phase}
    (read : ∀ readAfter ∈ phase.readAfter, readAfter ∈ writer.phase.readAfter ∨
      readAfter = successes s.db writer.job.domainId) :
    Bounded (s.setPhase place writer phase) := by
  refine ⟨bounded.paired, ?_, bounded.shown⟩
  intro other member
  rcases List.mem_or_eq_of_mem_set member with old | rfl
  · exact bounded.writers other old
  · intro readAfter inPhase
    rcases read readAfter inPhase with before | now
    · exact bounded.writers writer (List.mem_of_getElem? found) readAfter before
    · exact Nat.le_of_eq now

theorem Bounded.drop (bounded : Bounded s) (place : Nat) : Bounded (s.drop place) :=
  ⟨bounded.paired, fun other member => bounded.writers other (List.mem_of_mem_eraseIdx member),
    bounded.shown⟩

theorem Bounded.release (bounded : Bounded s) {place : Nat}
    (found : s.writers[place]? = some writer) {inFlight : Option Document}
    (read : ∀ document ∈ inFlight, document.readAfter ∈ writer.phase.readAfter) :
    Bounded (s.release place writer inFlight) := by
  unfold Indexing.release
  split
  · refine bounded.rephase found ?_
    intro readAfter inPhase
    simp only [Phase.readAfter, Option.mem_some_iff] at inPhase
    rw [← inPhase]
    exact Or.inl (read _ rfl)
  · exact bounded.drop place

/-- Only the outbox differs. -/
theorem Bounded.outbox (bounded : Bounded s) (db : Database)
    (domains : db.domains = s.db.domains) (policies : db.policies = s.db.policies)
    (snapshots : db.snapshots = s.db.snapshots) : Bounded { s with db := db } := by
  have same : ∀ domainId, successes db domainId = successes s.db domainId := by
    intro domainId
    rw [successes, successes, snapshots]
  refine ⟨?_, ?_, ?_⟩
  · rw [domains, policies]
    exact bounded.paired
  · intro writer member readAfter inPhase
    rw [same]
    exact bounded.writers writer member readAfter inPhase
  · intro domainId document inIndex
    rw [policies, same]
    exact bounded.shown domainId document inIndex

theorem Bounded.write (bounded : Bounded s) (sound : Sound s)
    (member : writer ∈ s.writers) {document : Document}
    (read : document.readAfter ∈ writer.phase.readAfter) :
    Bounded (s.write writer.job.domainId document) := by
  refine ⟨bounded.paired, bounded.writers, ?_⟩
  intro domainId shown inIndex
  by_cases same : domainId = writer.job.domainId
  · subst same
    have written : (s.write writer.job.domainId document).index writer.job.domainId =
        some document := Function.update_self ..
    rw [written] at inIndex
    cases inIndex
    exact ⟨(sound.writers writer member).known, bounded.writers writer member _ read⟩
  · have kept : (s.write writer.job.domainId document).index domainId = s.index domainId :=
      Function.update_of_ne same ..
    rw [kept] at inIndex
    exact bounded.shown domainId shown inIndex

theorem complete_bounded (bounded : Bounded s) (place : Nat) : Bounded (s.complete place) := by
  unfold Indexing.complete
  split
  · rename_i job claim document found
    unfold Store.complete
    by_cases held : s.db.indexOutbox.any (IndexOutboxRow.isHeldBy job) = true
    · rw [if_pos held]
      have removed := bounded.outbox { s.db with
        indexOutbox := s.db.indexOutbox.filter fun row => !row.isHeldBy job } rfl rfl rfl
      exact removed.drop place
    · rw [if_neg held]
      exact bounded.drop place
  · exact bounded

theorem fail_bounded (bounded : Bounded s) (place : Nat) (now : Time) (retryAfter : Duration)
    (maxAttempts : Nat) (summary : Text) :
    Bounded (s.fail place now retryAfter maxAttempts summary) := by
  unfold Indexing.fail
  split
  · rename_i job claim inFlight found
    have read : ∀ document ∈ inFlight,
        document.readAfter ∈ (Phase.failed inFlight).readAfter := by
      intro document member
      exact Option.mem_map_of_mem _ member
    cases failed : Store.fail s.db job now retryAfter maxAttempts summary with
    | error reason => exact bounded.release found read
    | ok next =>
        obtain ⟨change, _, _, _, rfl⟩ := fail_outbox failed
        exact (bounded.outbox { s.db with
          indexOutbox := updateWhere (IndexOutboxRow.isHeldBy job) change s.db.indexOutbox }
          rfl rfl rfl).release found read
  · exact bounded

theorem claimReady_bounded (bounded : Bounded s) (now : Time) (lease : Duration) (limit : Nat) :
    Bounded (s.claimReady now lease limit) := by
  unfold Indexing.claimReady Store.claimReady
  dsimp only
  split
  · simpa using bounded
  · have claimed := bounded.outbox { s.db with
      indexOutbox := updateWhere
        (fun row =>
          (readyRows s.db.indexOutbox now lease limit).any fun found => found.id == row.id)
        (IndexOutboxRow.claimedFor now) s.db.indexOutbox } rfl rfl rfl
    refine ⟨claimed.paired, ?_, claimed.shown⟩
    intro writer member
    rcases List.mem_append.mp member with old | new
    · exact claimed.writers writer old
    · obtain ⟨job, _, rfl⟩ := List.mem_map.mp new
      intro readAfter inPhase
      cases inPhase

theorem step_bounded (sound : Sound s) (bounded : Bounded s) (action : Action) :
    Bounded (s.step crate collation action) := by
  cases action with
  | store call =>
      refine ⟨exec_paired sound.keys call bounded.paired, ?_, ?_⟩
      · intro writer member readAfter inPhase
        exact (bounded.writers writer member readAfter inPhase).trans
          (exec_successes sound.keys call _)
      · intro domainId document inIndex
        have before := bounded.shown domainId document inIndex
        exact ⟨exec_known sound.keys call before.1,
          before.2.trans (exec_successes sound.keys call domainId)⟩
  | claimReady now lease limit => exact claimReady_bounded bounded now lease limit
  | loadDomain place =>
      unfold Indexing.step Indexing.loadDomain
      dsimp only
      split
      · rename_i job claim found
        split <;> exact bounded.rephase found (by simp [Phase.readAfter])
      · exact bounded
  | loadTechnologies place =>
      unfold Indexing.step Indexing.loadTechnologies
      dsimp only
      split
      · rename_i found
        exact bounded.rephase found (by simp [Phase.readAfter])
      · exact bounded
  | failLoad place =>
      unfold Indexing.step Indexing.failLoad
      dsimp only
      split
      · rename_i found
        exact bounded.rephase found (by simp [Phase.readAfter])
      · rename_i found
        exact bounded.rephase found (by simp [Phase.readAfter])
      · exact bounded
  | land place =>
      unfold Indexing.step Indexing.land
      dsimp only
      split
      · rename_i found
        have written := bounded.write sound (List.mem_of_getElem? found) rfl
        exact written.rephase found (by simp [Phase.readAfter])
      · rename_i found
        have written := bounded.write sound (List.mem_of_getElem? found) rfl
        exact written.rephase found (by simp [Phase.readAfter])
      · rename_i found
        exact (bounded.write sound (List.mem_of_getElem? found) rfl).drop place
      · exact bounded
  | respond place =>
      unfold Indexing.step Indexing.respond
      dsimp only
      split
      · rename_i found
        exact bounded.rephase found (by simp [Phase.readAfter])
      · exact bounded
  | failUpsert place =>
      unfold Indexing.step Indexing.failUpsert
      dsimp only
      split
      · rename_i found
        exact bounded.rephase found (by simp [Phase.readAfter])
      · rename_i found
        exact bounded.rephase found (by simp [Phase.readAfter])
      · exact bounded
  | complete place => exact complete_bounded bounded place
  | fail place now retryAfter maxAttempts summary =>
      exact fail_bounded bounded place now retryAfter maxAttempts summary
  | stop place =>
      unfold Indexing.step Indexing.stop
      dsimp only
      split
      · rename_i found
        exact bounded.release found (by simp [Phase.readAfter])
      · rename_i found
        exact bounded.release found fun document member => Option.mem_map_of_mem _ member
      · exact bounded
      · exact bounded.drop place
      · exact bounded

end Indexers

section Invariant

/-- The rebuild will still write the domain as of the given success, or a later one. -/
def RebuildPhase.Awaits (domainId : Uuid) (readAfter : Nat) : RebuildPhase → Prop
  | .idle complete => complete = false
  | .deleting | .creating | .configuring | .listing => True
  | .reading domainIds documents => domainId ∈ domainIds ∨
      ∃ document ∈ documents, document.domainId = domainId ∧ readAfter ≤ document.readAfter
  | .loading loaded _ loadedAfter domainIds documents =>
      (domainId = loaded ∧ readAfter ≤ loadedAfter) ∨ domainId ∈ domainIds ∨
        ∃ document ∈ documents, document.domainId = domainId ∧ readAfter ≤ document.readAfter
  | .upserting chunk rest =>
      ∃ document ∈ chunk ++ rest.flatten,
        document.domainId = domainId ∧ readAfter ≤ document.readAfter

/-- The domains the rebuild goes through, in its order. -/
def RebuildPhase.domainIds : RebuildPhase → List Uuid
  | .reading domainIds documents => documents.map Document.domainId ++ domainIds
  | .loading loaded _ _ domainIds documents =>
      documents.map Document.domainId ++ loaded :: domainIds
  | .upserting chunk rest => (chunk ++ rest.flatten).map Document.domainId
  | _ => []

/-- The index may still be emptied. -/
def RebuildPhase.isClearing : RebuildPhase → Bool
  | .idle complete => !complete
  | .deleting | .creating | .configuring | .listing => true
  | _ => false

theorem RebuildPhase.awaits_of_isClearing {phase : RebuildPhase}
    (clearing : phase.isClearing = true) (domainId : Uuid) (readAfter : Nat) :
    phase.Awaits domainId readAfter := by
  cases phase with
  | idle complete =>
      rw [isClearing, Bool.not_eq_true'] at clearing
      exact clearing
  | deleting | creating | configuring | listing => trivial
  | reading | loading | upserting => cases clearing

/-- A rebuild's request that puts no document over a later one, and empties the index
only while the rebuild has yet to fill it. -/
def Rebuilding.Advances (r : Rebuilding) : Request → Prop
  | .upsert documents => ∀ document ∈ documents, ∀ shown ∈ r.indexing.index document.domainId,
      shown.readAfter ≤ document.readAfter
  | .delete => r.phase.isClearing = true
  | .create | .settings => True

instance (r : Rebuilding) : (request : Request) → Decidable (r.Advances request)
  | .upsert documents => inferInstanceAs (Decidable (∀ document ∈ documents, _))
  | .delete => inferInstanceAs (Decidable (_ = _))
  | .create | .settings => .isTrue trivial

/-- The indexers write and complete under their latest claims, and the requests of a
rebuild that land advance the index. -/
def Undisturbed (r : Rebuilding) : RebuildAction → Prop
  | .indexing action => Fenced r.indexing action
  | .land => ∀ request ∈ r.phase.request, r.Advances request
  | .landStray place => ∀ request ∈ r.strays[place]?, r.Advances request
  | _ => True

instance (r : Rebuilding) : (action : RebuildAction) → Decidable (Undisturbed r action)
  | .indexing action => inferInstanceAs (Decidable (Fenced r.indexing action))
  | .land => inferInstanceAs (Decidable (∀ request ∈ r.phase.request, _))
  | .landStray place => inferInstanceAs (Decidable (∀ request ∈ r.strays[place]?, _))
  | .start | .listDomains | .loadDomain | .loadTechnologies | .send | .giveUp .. => .isTrue trivial

/-- The indexers as they would be had nothing been rebuilt: what their index shows is
shown, or the rebuild is about to show it. -/
structure Mirrors (s : Indexing) (r : Rebuilding) : Prop where
  sound : Sound s
  bounded : Bounded s
  same : r.indexing = s.showing r.indexing.index
  distinct : r.phase.domainIds.Nodup
  covers : ∀ domainId document, s.index domainId = some document →
    r.phase.Awaits domainId document.readAfter ∨
      ∃ shown, r.indexing.index domainId = some shown ∧ document.readAfter ≤ shown.readAfter

variable {crate : UrlCrate} {collation : Collation} {s : Indexing} {r : Rebuilding}

theorem Mirrors.db (mirrors : Mirrors s r) : r.indexing.db = s.db := by
  rw [mirrors.same]
  rfl

theorem Mirrors.upToDate (mirrors : Mirrors s r) (complete : r.phase = .idle true) :
    UpToDate r.indexing := by
  intro domainId unqueued crawled
  rw [mirrors.db] at unqueued crawled ⊢
  obtain ⟨document, inIndex, current⟩ := mirrors.sound.upToDate domainId unqueued crawled
  rcases mirrors.covers domainId document inIndex with awaits | ⟨shown, inReal, later⟩
  · rw [complete] at awaits
    cases awaits
  · exact ⟨shown, inReal, current.trans later⟩

/-- A change of phase alone. -/
theorem Mirrors.rephase (mirrors : Mirrors s r) {phase : RebuildPhase}
    (distinct : phase.domainIds.Nodup)
    (awaits : ∀ domainId document, s.index domainId = some document →
      r.phase.Awaits domainId document.readAfter → phase.Awaits domainId document.readAfter) :
    Mirrors s { r with phase := phase } := by
  refine ⟨mirrors.sound, mirrors.bounded, mirrors.same, distinct, ?_⟩
  intro domainId document inIndex
  rcases mirrors.covers domainId document inIndex with before | shown
  · exact Or.inl (awaits domainId document inIndex before)
  · exact Or.inr shown

theorem indexing_mirrors (mirrors : Mirrors s r) (action : Action)
    (fenced : Fenced r.indexing action) :
    Mirrors (s.step crate collation action)
      (r.step crate collation (.indexing action)) := by
  have sameFence : Fenced s action := by
    rw [mirrors.same] at fenced
    cases action <;> exact fenced
  have sameLanding : action.landing r.indexing = action.landing s := by
    rw [mirrors.same]
    cases action <;> rfl
  have real : r.indexing.step crate collation action =
      (s.step crate collation action).showing (placed r.indexing.index (action.landing s)) := by
    rw [← step_showing, ← mirrors.same]
  have ghost : (s.step crate collation action).index = placed s.index (action.landing s) := by
    have itself := step_showing crate collation s s.index action
    exact congrArg Indexing.index itself
  refine ⟨step_sound s action sameFence mirrors.sound, step_bounded mirrors.sound mirrors.bounded
    action, ?_, mirrors.distinct, ?_⟩
  · simp only [Rebuilding.step, real]
    rfl
  · intro domainId document inIndex
    rw [ghost] at inIndex
    simp only [Rebuilding.step, real, Indexing.showing]
    cases landed : action.landing s with
    | none =>
        rw [landed] at inIndex
        exact mirrors.covers domainId document inIndex
    | some request =>
        rw [landed] at inIndex
        obtain ⟨written, latest⟩ := request
        by_cases chosen : domainId = written
        · subst chosen
          have atDomain : placed s.index (some (domainId, latest)) domainId = some latest :=
            Function.update_self ..
          rw [atDomain] at inIndex
          cases inIndex
          exact Or.inr ⟨document, Function.update_self .., Nat.le_refl _⟩
        · have elsewhere (index : Uuid → Option Document) :
              placed index (some (written, latest)) domainId = index domainId :=
            Function.update_of_ne chosen ..
          rw [elsewhere] at inIndex ⊢
          exact mirrors.covers domainId document inIndex

/-- What a document shows, a request that advances keeps, but for a deletion. -/
theorem execute_covers {index : SearchIndex} {request : Request}
    (executed : r.searchIndex.execute request = some index) (advances : r.Advances request)
    {domainId : Uuid} {shown : Document} (inIndex : r.indexing.index domainId = some shown) :
    r.phase.isClearing = true ∨
      ∃ later, index.documents domainId = some later ∧ shown.readAfter ≤ later.readAfter := by
  cases request with
  | delete => exact Or.inl advances
  | create =>
      simp only [SearchIndex.execute] at executed
      split at executed
      · cases executed
      · cases executed
        exact Or.inr ⟨shown, inIndex, Nat.le_refl _⟩
  | settings =>
      cases executed
      exact Or.inr ⟨shown, inIndex, Nat.le_refl _⟩
  | upsert documents =>
      cases executed
      right
      rcases writeAll_cases r.indexing.index documents domainId with ⟨_, kept⟩ | found
      · exact ⟨shown, kept.trans inIndex, Nat.le_refl _⟩
      · obtain ⟨document, member, same, written⟩ := found
        subst same
        exact ⟨document, written, advances document member shown inIndex⟩

theorem RebuildPhase.send_domainIds (rest : List (List Document)) :
    (RebuildPhase.send rest).domainIds = rest.flatten.map Document.domainId := by
  cases rest <;> rfl

theorem RebuildPhase.send_awaits {rest : List (List Document)} {domainId : Uuid} {readAfter : Nat}
    {document : Document} (member : document ∈ rest.flatten) (same : document.domainId = domainId)
    (later : readAfter ≤ document.readAfter) :
    (RebuildPhase.send rest).Awaits domainId readAfter := by
  cases rest with
  | nil => cases member
  | cons chunk rest => exact ⟨document, member, same, later⟩

theorem Mirrors.setIndex (mirrors : Mirrors s r) (index : SearchIndex) :
    (r.setIndex index).indexing = s.showing index.documents := by
  rw [Rebuilding.setIndex, mirrors.same]
  rfl

/-- What the rebuild has been waiting to write is shown from now on. -/
theorem upsert_mirrors (mirrors : Mirrors s r) {chunk : List Document}
    {rest : List (List Document)} (sent : r.phase = .upserting chunk rest)
    (advances : r.Advances (.upsert chunk)) :
    Mirrors s { r.setIndex ⟨true, writeAll r.indexing.index chunk⟩ with phase := .send rest } := by
  have distinct := mirrors.distinct
  rw [sent, RebuildPhase.domainIds, List.map_append, List.nodup_append] at distinct
  refine ⟨mirrors.sound, mirrors.bounded, mirrors.setIndex _, ?_, ?_⟩
  · rw [RebuildPhase.send_domainIds]
    exact distinct.2.1
  · intro domainId document inIndex
    rcases mirrors.covers domainId document inIndex with awaits | ⟨shown, inReal, later⟩
    · rw [sent] at awaits
      obtain ⟨awaited, member, same, later⟩ := awaits
      rcases List.mem_append.mp member with now | afterwards
      · subst same
        exact Or.inr ⟨awaited, writeAll_of_mem _ now distinct.1, later⟩
      · exact Or.inl (RebuildPhase.send_awaits afterwards same later)
    · rcases execute_covers rfl advances inReal with clearing | ⟨written, inNext, further⟩
      · rw [sent] at clearing
        cases clearing
      · exact Or.inr ⟨written, inNext, later.trans further⟩

theorem land_mirrors (mirrors : Mirrors s r)
    (advances : ∀ request ∈ r.phase.request, r.Advances request) : Mirrors s r.land := by
  unfold Rebuilding.land
  split
  · rename_i request sent
    split
    · rename_i index executed
      cases phase : r.phase with
      | idle | listing | reading | loading =>
          rw [phase] at sent
          cases sent
      | deleting | creating | configuring =>
          refine ⟨mirrors.sound, mirrors.bounded, mirrors.setIndex index, List.nodup_nil, ?_⟩
          exact fun _ _ _ => Or.inl trivial
      | upserting chunk rest =>
          rw [phase] at sent
          cases sent
          cases executed
          exact upsert_mirrors mirrors phase (advances _ (by rw [phase]; rfl))
    · exact mirrors.rephase List.nodup_nil fun _ _ _ _ => rfl
  · exact mirrors

/-- A request of a rebuild that has given up. -/
theorem landStray_mirrors (mirrors : Mirrors s r) (place : Nat)
    (advances : ∀ request ∈ r.strays[place]?, r.Advances request) :
    Mirrors s (r.landStray place) := by
  unfold Rebuilding.landStray
  split
  · rename_i request found
    cases executed : r.searchIndex.execute request with
    | none =>
        exact ⟨mirrors.sound, mirrors.bounded, mirrors.same, mirrors.distinct, mirrors.covers⟩
    | some index =>
        refine ⟨mirrors.sound, mirrors.bounded, mirrors.setIndex index, mirrors.distinct, ?_⟩
        intro domainId document inIndex
        rcases mirrors.covers domainId document inIndex with awaits | ⟨shown, inReal, later⟩
        · exact Or.inl awaits
        · rcases execute_covers executed (advances request found) inReal with
            clearing | ⟨written, inNext, further⟩
          · exact Or.inl (RebuildPhase.awaits_of_isClearing clearing domainId _)
          · exact Or.inr ⟨written, inNext, later.trans further⟩
  · exact mirrors

theorem mem_activeDomainIds {db : Database} (housed : Housed db)
    (paired : db.domains.map DomainRow.id = db.policies.map PolicyRow.domainId)
    (collation : Collation) {domainId : Uuid}
    (known : domainId ∈ db.policies.map PolicyRow.domainId) :
    domainId ∈ activeDomainIds collation db := by
  rw [← paired] at known
  obtain ⟨row, member, same⟩ := List.mem_map.mp known
  refine List.mem_map.mpr ⟨row, ?_, same⟩
  rw [List.mem_insertionSort, List.mem_filter]
  exact ⟨member, by simp [DomainRow.isActive, housed.active row member]⟩

theorem activeDomainIds_nodup {db : Database} (keys : Keys db)
    (paired : db.domains.map DomainRow.id = db.policies.map PolicyRow.domainId)
    (collation : Collation) : (activeDomainIds collation db).Nodup := by
  have ids : (db.domains.map DomainRow.id).Nodup := paired ▸ keys.policyKeys
  have filtered : ((db.domains.filter DomainRow.isActive).map DomainRow.id).Nodup :=
    ids.sublist (List.filter_sublist.map _)
  have sorted := List.perm_insertionSort
    (fun left right : DomainRow => collation.le left.canonicalDomain right.canonicalDomain)
    (db.domains.filter DomainRow.isActive)
  exact (sorted.map DomainRow.id).nodup_iff.mpr filtered

theorem listDomains_mirrors (mirrors : Mirrors s r) (collation : Collation) :
    Mirrors s (r.listDomains collation) := by
  unfold Rebuilding.listDomains
  split
  · rw [mirrors.db]
    refine mirrors.rephase ?_ ?_
    · exact activeDomainIds_nodup mirrors.sound.keys mirrors.bounded.paired collation
    · intro domainId document inIndex _
      exact Or.inl (mem_activeDomainIds mirrors.sound.housed mirrors.bounded.paired collation
        (mirrors.bounded.shown domainId document inIndex).1)
  · exact mirrors

/-- What is read now is no older than anything the index shows. -/
theorem loadDomain_mirrors (mirrors : Mirrors s r) : Mirrors s r.loadDomain := by
  unfold Rebuilding.loadDomain
  split
  · rename_i domainId domainIds documents phase
    have distinct := mirrors.distinct
    rw [phase] at distinct
    rw [mirrors.db]
    split
    · refine mirrors.rephase distinct ?_
      intro other document inIndex awaits
      rw [phase] at awaits
      rcases awaits with listed | read
      · rcases List.mem_cons.mp listed with rfl | later
        · exact Or.inl ⟨rfl, (mirrors.bounded.shown _ document inIndex).2⟩
        · exact Or.inr (Or.inl later)
      · exact Or.inr (Or.inr read)
    · rename_i missing
      refine mirrors.rephase (distinct.sublist ?_) ?_
      · exact (List.Sublist.refl _).append (List.sublist_cons_self _ _)
      · intro other document inIndex awaits
        rw [phase] at awaits
        rcases awaits with listed | read
        · rcases List.mem_cons.mp listed with rfl | later
          · obtain ⟨domain, projected⟩ := projectedDomain_isSome mirrors.sound.housed
              (mirrors.bounded.shown _ document inIndex).1
            rw [projected] at missing
            cases missing
          · exact Or.inl later
        · exact Or.inr read
  · exact mirrors

theorem loadTechnologies_mirrors (mirrors : Mirrors s r) (collation : Collation) :
    Mirrors s (r.loadTechnologies collation) := by
  unfold Rebuilding.loadTechnologies
  split
  · rename_i domainId domain readAfter domainIds documents phase
    have distinct := mirrors.distinct
    rw [phase] at distinct
    refine mirrors.rephase ?_ ?_
    · simpa [RebuildPhase.domainIds, Document.domainId] using distinct
    · intro other document inIndex awaits
      rw [phase] at awaits
      rcases awaits with ⟨rfl, later⟩ | listed | ⟨read, member, same, later⟩
      · exact Or.inr ⟨_, List.mem_append_right _ (List.mem_singleton.mpr rfl), rfl, later⟩
      · exact Or.inl listed
      · exact Or.inr ⟨read, List.mem_append_left _ member, same, later⟩
  · exact mirrors

theorem send_mirrors (mirrors : Mirrors s r) : Mirrors s r.send := by
  unfold Rebuilding.send
  split
  · rename_i documents phase
    have distinct := mirrors.distinct
    rw [phase] at distinct
    have whole := chunks_flatten (show 0 < 100 by omega) documents
    refine mirrors.rephase ?_ ?_
    · rw [RebuildPhase.send_domainIds, whole]
      simpa [RebuildPhase.domainIds] using distinct
    · intro domainId document inIndex awaits
      rw [phase] at awaits
      rcases awaits with listed | ⟨read, member, same, later⟩
      · cases listed
      · exact RebuildPhase.send_awaits (whole.symm ▸ member) same later
  · exact mirrors

theorem step_mirrors (action : RebuildAction) (undisturbed : Undisturbed r action)
    (mirrors : Mirrors s r) : ∃ next, Mirrors next (r.step crate collation action) := by
  cases action with
  | indexing action => exact ⟨_, indexing_mirrors mirrors action undisturbed⟩
  | start =>
      refine ⟨s, ?_⟩
      simp only [Rebuilding.step, Rebuilding.start]
      split
      · split <;> exact mirrors.rephase List.nodup_nil fun _ _ _ _ => trivial
      · exact mirrors
  | land => exact ⟨s, land_mirrors mirrors undisturbed⟩
  | listDomains => exact ⟨s, listDomains_mirrors mirrors collation⟩
  | loadDomain => exact ⟨s, loadDomain_mirrors mirrors⟩
  | loadTechnologies => exact ⟨s, loadTechnologies_mirrors mirrors collation⟩
  | send => exact ⟨s, send_mirrors mirrors⟩
  | giveUp inFlight =>
      refine ⟨s, ?_⟩
      simp only [Rebuilding.step, Rebuilding.giveUp]
      split
      · exact mirrors
      · exact ⟨mirrors.sound, mirrors.bounded, mirrors.same, List.nodup_nil,
          fun _ _ _ => Or.inl rfl⟩
  | landStray place => exact ⟨s, landStray_mirrors mirrors place undisturbed⟩

theorem initial_mirrors (catalogue : Catalogue) :
    Mirrors (Indexing.initial catalogue) (Rebuilding.initial catalogue) where
  sound := initial_sound catalogue
  bounded := ⟨rfl, fun _ member => (nomatch member), fun _ _ inIndex => (nomatch inIndex)⟩
  same := rfl
  distinct := List.nodup_nil
  covers := fun _ _ inIndex => nomatch inIndex

end Invariant

section Runs

/-- Whenever no rebuild is under way and the last one has completed, a crawled domain
without an outbox row is shown as of its last success: a rebuild loses nothing that
the indexers write while it empties and fills the index, as long as they write and
complete under their latest claims, none of its requests puts a document over a later
one, and none empties the index once it is being filled. -/
theorem rebuilt_up_to_date (crate : UrlCrate) (collation : Collation) (catalogue : Catalogue)
    (actions : List RebuildAction)
    (undisturbed : Guarded (fun r action => r.step crate collation action) Undisturbed
      (Rebuilding.initial catalogue) actions)
    (complete : (run (fun r action => r.step crate collation action)
      (Rebuilding.initial catalogue) actions).phase = .idle true) :
    UpToDate (run (fun r action => r.step crate collation action)
      (Rebuilding.initial catalogue) actions).indexing := by
  obtain ⟨s, mirrors⟩ := run_invariant_of_guarded (P := fun r => ∃ s, Mirrors s r)
    (fun r action undisturbed mirrored => by
      obtain ⟨s, mirrors⟩ := mirrored
      exact step_mirrors action undisturbed mirrors)
    _ actions undisturbed ⟨_, initial_mirrors catalogue⟩
  exact mirrors.upToDate complete

/-- A domain that has been crawled and indexed once. -/
def indexedDomain : List RebuildAction :=
  let domain := exampleDomain
  ([.store (.createWithAudit 1 domain DomainCreationDefaults.crawlPolicy "operator".toList 0)] ++
    plainCrawl 10 0 ++
    [.claimReady 1 60 10, .loadDomain 0, .loadTechnologies 0, .land 0, .respond 0,
      .complete 0] : List Action).map .indexing

/-- The domain is crawled again and an indexer reads its projection. -/
def crawledAgain : List RebuildAction :=
  ([.store (.requestDomainCrawl exampleDomain "operator".toList 5)] ++ plainCrawl 30 6 ++
    [.claimReady 7 60 10, .loadDomain 0, .loadTechnologies 0] : List Action).map .indexing

/-- The rebuild has deleted the index and created it again, and has read the domain. -/
def readDomain : List RebuildAction :=
  [.start, .land, .land, .land, .listDomains, .loadDomain, .loadTechnologies, .send]

/-- The second crawl is indexed before the rebuild reads the domain. -/
theorem crawledAgain_rebuilt :
    let r := run (fun r action => r.step plainUrlCrate codePoints action)
      (Rebuilding.initial Catalogue.empty)
      (indexedDomain ++ crawledAgain ++ readDomain ++ [.indexing (.land 0), .land,
        .indexing (.respond 0), .indexing (.complete 0)])
    r.indexing.db.indexOutbox = [] ∧ successes r.indexing.db 1 = 2 ∧ UpToDate r.indexing := by
  refine ⟨by decide +kernel, by decide +kernel, ?_⟩
  exact rebuilt_up_to_date plainUrlCrate codePoints Catalogue.empty _ (by decide +kernel)
    (by decide +kernel)

/-- The rebuild writes what it has read before the second crawl over what the indexer
has written after it. -/
example :
    ¬UpToDate (run (fun r action => r.step plainUrlCrate codePoints action)
      (Rebuilding.initial Catalogue.empty)
      (indexedDomain ++ readDomain ++ crawledAgain ++ [.indexing (.land 0),
        .indexing (.respond 0), .indexing (.complete 0), .land])).indexing := by
  intro upToDate
  obtain ⟨document, shown, fresh⟩ := upToDate 1 (by decide +kernel) (by decide +kernel)
  revert fresh
  cases shown
  decide +kernel

end Runs

section Alone

variable {crate : UrlCrate} {collation : Collation}

/-- The document of a domain, read in one go. -/
def documentOf (collation : Collation) (db : Database) (domainId : Uuid) : Option Document :=
  (projectedDomain db domainId).map fun domain => {
    projection := {
      domainId := domainId
      domain := domain
      technologies := projectedTechnologies collation db domainId }
    readAfter := successes db domainId }

/-- A rebuild that nothing else interleaves with. -/
def rebuildSearchIndex (collation : Collation) (db : Database) : List RebuildAction :=
  let domainIds := activeDomainIds collation db
  [.start, .land, .land, .land, .listDomains] ++
    domainIds.flatMap (fun _ => [.loadDomain, .loadTechnologies]) ++ [.send] ++
    (chunks 100 (domainIds.filterMap (documentOf collation db))).map fun _ => .land

theorem run_reads (crate : UrlCrate) (collation : Collation) (r : Rebuilding)
    (domainIds : List Uuid) (documents : List Document) :
    run (fun r action => r.step crate collation action)
        { r with phase := .reading domainIds documents }
        (domainIds.flatMap fun _ => [.loadDomain, .loadTechnologies]) =
      { r with
        phase := .reading [] (documents ++
          domainIds.filterMap (documentOf collation r.indexing.db)) } := by
  induction domainIds generalizing documents with
  | nil => simp
  | cons domainId rest ih =>
    rw [List.flatMap_cons, List.filterMap_cons]
    cases projected : projectedDomain r.indexing.db domainId with
    | none =>
        have unread : documentOf collation r.indexing.db domainId = none := by
          rw [documentOf, projected]
          rfl
        rw [unread, ← ih documents]
        simp [Rebuilding.step, Rebuilding.loadDomain, Rebuilding.loadTechnologies, projected]
    | some domain =>
        have read : documentOf collation r.indexing.db domainId = some {
            projection := {
              domainId := domainId
              domain := domain
              technologies := projectedTechnologies collation r.indexing.db domainId }
            readAfter := successes r.indexing.db domainId } := by
          rw [documentOf, projected]
          rfl
        rw [read]
        have later := ih (documents ++ [{
            projection := {
              domainId := domainId
              domain := domain
              technologies := projectedTechnologies collation r.indexing.db domainId }
            readAfter := successes r.indexing.db domainId }])
        rw [List.append_assoc, List.singleton_append] at later
        rw [← later]
        simp [Rebuilding.step, Rebuilding.loadDomain, Rebuilding.loadTechnologies, projected]

/-- The chunks written one after the other are the documents written at once. -/
theorem run_sends (crate : UrlCrate) (collation : Collation) (r : Rebuilding)
    (rest : List (List Document)) (present : r.present = true) :
    run (fun r action => r.step crate collation action) { r with phase := .send rest }
        (rest.map fun _ => .land) =
      { r.setIndex ⟨true, writeAll r.indexing.index rest.flatten⟩ with phase := .idle true } := by
  induction rest generalizing r with
  | nil =>
      rw [List.map_nil, run_nil, RebuildPhase.send]
      simp [Rebuilding.setIndex, writeAll, ← present]
  | cons chunk rest ih =>
    have written := ih (r.setIndex ⟨true, writeAll r.indexing.index chunk⟩) rfl
    rw [List.map_cons, run_cons]
    have whole : writeAll (writeAll r.indexing.index chunk) rest.flatten =
        writeAll r.indexing.index (chunk :: rest).flatten := by
      rw [List.flatten_cons, writeAll, writeAll, writeAll, List.foldl_append]
    rw [← whole]
    exact written

theorem run_prepares (r : Rebuilding) {complete : Bool} (idle : r.phase = .idle complete) :
    run (fun r action => r.step crate collation action) r
        [.start, .land, .land, .land, .listDomains] =
      { r.setIndex ⟨true, if r.present then fun _ => none else r.indexing.index⟩ with
        phase := .reading (activeDomainIds collation r.indexing.db) [] } := by
  cases present : r.present <;>
    simp [Rebuilding.step, Rebuilding.start, Rebuilding.land, Rebuilding.listDomains,
      Rebuilding.setIndex, Rebuilding.searchIndex, SearchIndex.execute, RebuildPhase.request,
      RebuildPhase.succeeded, idle, present]

/-- A missing index shows nothing. -/
def Rebuilding.Blank (r : Rebuilding) : Prop :=
  r.present = false → r.indexing.index = fun _ => none

theorem execute_blank {r : Rebuilding} {request : Request} {index : SearchIndex}
    (executed : r.searchIndex.execute request = some index) : (r.setIndex index).Blank := by
  cases request with
  | delete =>
      simp only [SearchIndex.execute] at executed
      split at executed
      · cases executed
        exact fun _ => rfl
      · cases executed
  | create =>
      simp only [SearchIndex.execute] at executed
      split at executed
      · cases executed
      · cases executed
        exact fun present => nomatch present
  | settings | upsert =>
      cases executed
      exact fun present => nomatch present

theorem step_blank (r : Rebuilding) (action : RebuildAction) (blank : r.Blank) :
    (r.step crate collation action).Blank := by
  cases action with
  | indexing action =>
      intro present
      have real := step_showing crate collation r.indexing
        r.indexing.index action
      have same : (r.indexing.step crate collation action).index =
          placed r.indexing.index (action.landing r.indexing) := congrArg Indexing.index real
      simp only [Rebuilding.step, Bool.or_eq_false_iff, Option.isSome_eq_false_iff,
        Option.isNone_iff_eq_none] at present
      simp only [Rebuilding.step, same, present.2]
      exact blank present.1
  | start =>
      simp only [Rebuilding.step, Rebuilding.start]
      split <;> exact blank
  | land =>
      simp only [Rebuilding.step, Rebuilding.land]
      split
      · split
        · rename_i executed
          exact execute_blank executed
        · exact blank
      · exact blank
  | listDomains =>
      simp only [Rebuilding.step, Rebuilding.listDomains]
      split <;> exact blank
  | loadDomain =>
      simp only [Rebuilding.step, Rebuilding.loadDomain]
      split
      · split <;> exact blank
      · exact blank
  | loadTechnologies =>
      simp only [Rebuilding.step, Rebuilding.loadTechnologies]
      split <;> exact blank
  | send =>
      simp only [Rebuilding.step, Rebuilding.send]
      split <;> exact blank
  | giveUp inFlight =>
      simp only [Rebuilding.step, Rebuilding.giveUp]
      split <;> exact blank
  | landStray place =>
      simp only [Rebuilding.step, Rebuilding.landStray]
      split
      · rename_i request found
        cases executed : r.searchIndex.execute request with
        | none => exact blank
        | some index => exact execute_blank executed
      · exact blank

/-- What the documents of the listed domains show. -/
theorem writeAll_documents (db : Database) (domainIds : List Uuid) (domainId : Uuid) :
    writeAll (fun _ => none) (domainIds.filterMap (documentOf collation db)) domainId =
      if domainId ∈ domainIds then documentOf collation db domainId else none := by
  have named : ∀ {other : Uuid} {document : Document},
      documentOf collation db other = some document → document.domainId = other := by
    intro other document read
    obtain ⟨domain, _, rfl⟩ := Option.map_eq_some_iff.mp read
    rfl
  rcases writeAll_cases (fun _ => none) (domainIds.filterMap (documentOf collation db)) domainId
    with ⟨absent, kept⟩ | ⟨document, member, same, written⟩
  · rw [kept]
    split
    · rename_i listed
      cases read : documentOf collation db domainId with
      | none => rfl
      | some document =>
          have member := List.mem_filterMap.mpr ⟨domainId, listed, read⟩
          exact absurd (List.mem_map.mpr ⟨document, member, named read⟩) absent
    · rfl
  · obtain ⟨other, listed, read⟩ := List.mem_filterMap.mp member
    have chosen : other = domainId := (named read).symm.trans same
    subst chosen
    rw [written, if_pos listed, read]

/-- Whatever has happened before, a rebuild that is left alone completes, and the index
then holds the projection of each active domain and nothing else. -/
theorem rebuild_alone (crate : UrlCrate) (collation : Collation) (catalogue : Catalogue)
    (actions : List RebuildAction) :
    let r := run (fun r action => r.step crate collation action)
      (Rebuilding.initial catalogue) actions
    ∀ complete, r.phase = .idle complete →
      run (fun r action => r.step crate collation action) r
          (rebuildSearchIndex collation r.indexing.db) =
        { r with
          indexing := r.indexing.showing fun domainId =>
            if domainId ∈ activeDomainIds collation r.indexing.db then
              documentOf collation r.indexing.db domainId
            else none
          present := true
          phase := .idle true } := by
  intro r complete idle
  have blank : r.Blank := run_invariant step_blank _ actions fun _ => rfl
  have emptied : (if r.present then fun _ => none else r.indexing.index) =
      fun _ => (none : Option Document) := by
    cases present : r.present with
    | false => exact blank present
    | true => rfl
  rw [rebuildSearchIndex, run_append, run_append, run_append, run_prepares r idle, emptied]
  have read := run_reads crate collation
    (r.setIndex ⟨true, fun _ => none⟩) (activeDomainIds collation r.indexing.db) []
  rw [read, List.nil_append]
  have sent := run_sends crate collation
    (r.setIndex ⟨true, fun _ => none⟩) (chunks 100 ((activeDomainIds collation
      r.indexing.db).filterMap (documentOf collation r.indexing.db))) rfl
  rw [chunks_flatten (by omega)] at sent
  refine Eq.trans sent ?_
  have shown : writeAll (fun _ => none) ((activeDomainIds collation r.indexing.db).filterMap
      (documentOf collation r.indexing.db)) = fun domainId =>
        if domainId ∈ activeDomainIds collation r.indexing.db then
          documentOf collation r.indexing.db domainId
        else none := funext (writeAll_documents r.indexing.db _)
  simp only [Rebuilding.setIndex, Indexing.showing, shown]

/-- The second crawl of the domain is in the rebuilt index although its indexer was cut off. -/
theorem crawledAgain_alone :
    let r := run (fun r action => r.step plainUrlCrate codePoints action)
      (Rebuilding.initial Catalogue.empty) (indexedDomain ++ crawledAgain)
    let rebuilt := run (fun r action => r.step plainUrlCrate codePoints action) r
      (rebuildSearchIndex codePoints r.indexing.db)
    rebuilt.phase = .idle true ∧
      ((rebuilt.indexing.index 1).map Document.readAfter) = some 2 := by
  intro r rebuilt
  have alone : rebuilt = _ := rebuild_alone plainUrlCrate codePoints Catalogue.empty
    (indexedDomain ++ crawledAgain) true (by decide +kernel)
  rw [alone]
  exact ⟨rfl, by decide +kernel⟩

end Alone

end TechAtlas.Search
