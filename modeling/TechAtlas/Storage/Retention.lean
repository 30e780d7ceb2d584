import TechAtlas.Storage.Integrity
import TechAtlas.Store.Moves
import TechAtlas.Store.PublicRead

set_option autoImplicit false

/- Pruning: a run of `prune-expired-artifacts` asks once which locations have only
expired references and then deletes their files one by one, while workers store
bodies and record them. -/
namespace TechAtlas.Storage

open Library
open TechAtlas.Store

section Prune

/-- `expired_raw_artifact_locations`. -/
def expiredRawArtifactLocations (collation : Collation) (rows : List ArtifactRow) (now : Time) :
    List Text :=
  ((rows.map ArtifactRow.storageLocation).dedup.filter fun location =>
    rows.all fun row => row.storageLocation != location ||
      decide (row.retentionExpiresAt < now)).insertionSort
    fun left right => collation.le left right

/-- `std::path::Component`, without the kinds only Windows has. -/
inductive Component
  | rootDir
  | curDir
  | parentDir
  | normal (name : Text)
  deriving DecidableEq, Repr

def Component.named (name : Text) : Component :=
  if name = "..".toList then .parentDir else .normal name

/-- `Path::components`: empty components and dots are dropped, but for a dot
that starts a relative path. -/
def components (path : Text) : List Component :=
  let names := (path.splitOn '/').filter fun name => !name.isEmpty
  let rest := (names.filter fun name => name != ".".toList).map Component.named
  if path.head? = some '/' then .rootDir :: rest
  else if names.head? = some ".".toList then .curDir :: rest
  else rest

def isAsciiHexdigit (c : Char) : Bool :=
  c.isDigit || (97 ≤ c.toNat && c.toNat ≤ 102) || (65 ≤ c.toNat && c.toNat ≤ 70)

/-- `validated_artifact_location`. -/
def validatedArtifactLocation (location : Text) : Bool :=
  match components location with
  | [.normal root, .normal shard, .normal file] =>
      let checksum := file.take (file.length - 4)
      ".zst".toList.isSuffixOf file && root == "sha256".toList && utf8Length shard == 2 &&
        utf8Length checksum == 64 && shard.all isAsciiHexdigit && checksum.all isAsciiHexdigit &&
        shard.isPrefixOf checksum
  | _ => false

end Prune

section Machine

/-- The store and the database, with the metadata that workers have been returned
and not yet recorded, and what each running prune has still to delete. -/
structure Retention where
  now : Time
  db : Database
  store : ArtifactStore
  held : List RawArtifactMetadata
  prunes : List (List Text)

def Retention.initial (catalogue : Catalogue) (now : Time) : Retention where
  now := now
  db := Database.initial catalogue
  store := ArtifactStore.initial
  held := []
  prunes := []

/-- A worker records the metadata it holds with `record_success`, or stops. Any
other transaction leaves `raw_artifacts` alone, whose rows are immutable. -/
inductive RetentionAction
  | tick (elapsed : Duration)
  | store (action : Action)
  | record (place : Nat) (job : CrawlJobV1) (record : SuccessfulCrawlRecord)
      (fresh : FreshSnapshot)
  | abandon (place : Nat)
  | transaction (change : Database → Database)
  | query
  | remove (place : Nat) (ok : Bool)
  | stopPrune (place : Nat)

variable (collation : Collation) (zstd : Zstd) (sha : Sha256) (s : Retention)

def Retention.storeStep (action : Action) : Retention :=
  let store := s.store.step zstd sha action
  { s with
    store := store
    held := s.held ++ (store.returned.drop s.store.returned.length).map Prod.snd }

def Retention.record (place : Nat) (job : CrawlJobV1) (record : SuccessfulCrawlRecord)
    (fresh : FreshSnapshot) : Retention :=
  match s.held[place]? with
  | some artifact =>
      let held := s.held.eraseIdx place
      match recordSuccess s.db job { record with artifact := some artifact } fresh with
      | .ok db => { s with db := db, held := held }
      | .error _ => { s with held := held }
  | none => s

def Retention.transaction (change : Database → Database) : Retention :=
  if (change s.db).artifacts = s.db.artifacts then { s with db := change s.db } else s

/-- The loop body of `prune_artifact_files`. A file that is already absent counts
as deleted; any other error ends the prune. -/
def Retention.remove (place : Nat) (ok : Bool) : Retention :=
  match s.prunes[place]? with
  | some (location :: rest) =>
      if validatedArtifactLocation location && ok then
        { s with
          store := { s.store with
            files := Function.update s.store.files (.location location) none }
          prunes := s.prunes.set place rest }
      else { s with prunes := s.prunes.set place [] }
  | _ => s

def Retention.step : RetentionAction → Retention
  | .tick elapsed => { s with now := s.now + elapsed }
  | .store action => s.storeStep zstd sha action
  | .record place job record fresh => s.record place job record fresh
  | .abandon place => { s with held := s.held.eraseIdx place }
  | .transaction change => s.transaction change
  | .query =>
      { s with
        prunes := s.prunes ++ [expiredRawArtifactLocations collation s.db.artifacts s.now] }
  | .remove place ok => s.remove place ok
  | .stopPrune place => { s with prunes := s.prunes.set place [] }

/-- No call of `store` reads back a file that a running prune has to delete. -/
def Retention.unlisted : Option StoreCall → Prop
  | some call => call.phase = .reading →
      ∀ pending ∈ s.prunes, call.location sha ∉ pending
  | none => True

/-- No prune overlaps a worker's use of a location that it lists: when it queries,
no worker holds unrecorded metadata of such a location, and until it has deleted
the file, no call of `store` reads it back. -/
def Retention.exclusive : RetentionAction → Prop
  | .query => ∀ artifact ∈ s.held,
      artifact.storageLocation ∉ expiredRawArtifactLocations collation s.db.artifacts s.now
  | .store (.advance id _) => s.unlisted sha (s.store.calls id)
  | _ => True

instance instDecidableUnlisted : (call : Option StoreCall) → Decidable (s.unlisted sha call)
  | some call => inferInstanceAs (Decidable (call.phase = .reading →
      ∀ pending ∈ s.prunes, call.location sha ∉ pending))
  | none => isTrue trivial

instance instDecidableExclusive :
    (action : RetentionAction) → Decidable (s.exclusive collation sha action)
  | .query => inferInstanceAs (Decidable (∀ artifact ∈ s.held,
      artifact.storageLocation ∉ expiredRawArtifactLocations collation s.db.artifacts s.now))
  | .store (.advance id _) => inferInstanceAs (Decidable (s.unlisted sha (s.store.calls id)))
  | .store (.store _ _) => isTrue trivial
  | .store (.stop _ _) => isTrue trivial
  | .tick _ => isTrue trivial
  | .record _ _ _ _ => isTrue trivial
  | .abandon _ => isTrue trivial
  | .transaction _ => isTrue trivial
  | .remove _ _ => isTrue trivial
  | .stopPrune _ => isTrue trivial

end Machine

section Rows

variable {db next : Database}

/-- The metadata that a row of `raw_artifacts` holds. -/
def metadataOf (row : ArtifactRow) : RawArtifactMetadata where
  storageLocation := row.storageLocation
  checksumSha256 := row.checksumSha256
  compression := row.compression
  uncompressedSizeBytes := row.uncompressedSizeBytes
  compressedSizeBytes := row.compressedSizeBytes
  retentionExpiresAt := row.retentionExpiresAt

theorem insertArtifact_rows {snapshotId : Uuid} {capturedAt : Time}
    {artifact : RawArtifactMetadata}
    (success : insertArtifact db snapshotId capturedAt (some artifact) = some next) :
    ∀ row ∈ next.artifacts, row ∈ db.artifacts ∨ metadataOf row = artifact := by
  simp only [insertArtifact, Option.map_eq_some_iff, insertChecked_eq_some] at success
  obtain ⟨_, ⟨_, rfl⟩, rfl⟩ := success
  intro row member
  rcases List.mem_append.mp member with old | new
  · exact Or.inl old
  · rw [List.mem_singleton.mp new]
    exact Or.inr rfl

theorem recordSuccess_artifacts {job : CrawlJobV1} {record : SuccessfulCrawlRecord}
    {fresh : FreshSnapshot} {artifact : RawArtifactMetadata}
    (success : recordSuccess db job { record with artifact := some artifact } fresh = .ok next) :
    ∀ row ∈ next.artifacts, row ∈ db.artifacts ∨ metadataOf row = artifact := by
  obtain ⟨attempt, _, _, ⟨_, rfl⟩ | persisted⟩ := recordSuccess_cases success
  · exact fun row member => Or.inl member
  · simp only [persistSuccess, bind_eq_ok, orError_eq_ok, Database.updatePolicy,
      updateAttempt_eq_some, updatePolicies_eq_some, insertSnapshot, Option.map_eq_some_iff,
      insertChecked_eq_some] at persisted
    obtain ⟨_, ⟨_, rfl⟩, _, ⟨_, ⟨_, rfl⟩, rfl⟩, withCountry, countryDone, withArtifact,
      artifactDone, history, _, _, rfl⟩ := persisted
    obtain ⟨countries, rfl⟩ := insertCountry_eq_some countryDone
    have rows := insertArtifact_rows artifactDone
    exact fun row member => rows row member

end Rows

section Needed

variable {collation : Collation} {zstd : Zstd} {sha : Sha256} {stored : Bytes → Prop}
  {s : Retention}

/-- A worker is about to record the location, or an unexpired row refers to it. -/
def Retention.needs (s : Retention) (location : Text) : Prop :=
  (∃ artifact ∈ s.held, artifact.storageLocation = location) ∨
    ∃ row ∈ s.db.artifacts, row.storageLocation = location ∧ s.now ≤ row.retentionExpiresAt

/-- What keeps a prune from deleting a file that is needed. -/
structure Retained (zstd : Zstd) (sha : Sha256) (stored : Bytes → Prop) (s : Retention) :
    Prop where
  named : Named zstd sha stored s.store
  heldReturned : ∀ artifact ∈ s.held, ∃ contents, (contents, artifact) ∈ s.store.returned
  rowsReturned : ∀ row ∈ s.db.artifacts,
    ∃ contents, (contents, metadataOf row) ∈ s.store.returned
  present : ∀ location, s.needs location → (s.store.files (.location location)).isSome = true
  apart : ∀ pending ∈ s.prunes, ∀ location ∈ pending, ¬ s.needs location

theorem initial_retained (catalogue : Catalogue) (now : Time) :
    Retained zstd sha stored (Retention.initial catalogue now) where
  named := initial_named zstd sha stored
  heldReturned := by simp [Retention.initial]
  rowsReturned := by simp [Retention.initial, Database.initial]
  present := by simp [Retention.needs, Retention.initial, Database.initial]
  apart := by simp [Retention.initial]

/-- A step of the database or of the clock, after which nothing more is needed. -/
theorem Retained.shrink (retained : Retained zstd sha stored s) {now : Time} {db : Database}
    {held : List RawArtifactMetadata} {prunes : List (List Text)}
    (heldFrom : ∀ artifact ∈ held, artifact ∈ s.held)
    (rowsFrom : ∀ row ∈ db.artifacts, row ∈ s.db.artifacts ∨ metadataOf row ∈ s.held)
    (later : s.now ≤ now) (prunesFrom : ∀ pending ∈ prunes, ∀ location ∈ pending,
      (∃ old ∈ s.prunes, location ∈ old) ∨ ¬ s.needs location) :
    Retained zstd sha stored
      { s with now := now, db := db, held := held, prunes := prunes } := by
  have less (location : Text) (needed : Retention.needs
      { s with now := now, db := db, held := held, prunes := prunes } location) :
      s.needs location := by
    rcases needed with ⟨artifact, holding, same⟩ | ⟨row, inTable, same, unexpired⟩
    · exact Or.inl ⟨artifact, heldFrom artifact holding, same⟩
    · rcases rowsFrom row inTable with old | held
      · exact Or.inr ⟨row, old, same, le_trans later unexpired⟩
      · exact Or.inl ⟨_, held, same⟩
  constructor
  · exact retained.named
  · exact fun artifact holding => retained.heldReturned artifact (heldFrom artifact holding)
  · intro row inTable
    rcases rowsFrom row inTable with old | held
    · exact retained.rowsReturned row old
    · exact retained.heldReturned _ held
  · exact fun location needed => retained.present location (less location needed)
  · intro pending inPrunes location listed needed
    rcases prunesFrom pending inPrunes location listed with ⟨old, running, still⟩ | unneeded
    · exact retained.apart old running location still (less location needed)
    · exact unneeded (less location needed)

end Needed

section Steps

variable {collation : Collation} {zstd : Zstd} {sha : Sha256} {stored : Bytes → Prop}
  {s : Retention}

/-- A step of the store keeps every file that is in place. -/
theorem step_isSome {store : ArtifactStore} (named : Named zstd sha stored store)
    (action : Action) {location : Text}
    (present : (store.files (.location location)).isSome = true) :
    ((store.step zstd sha action).files (.location location)).isSome = true := by
  rcases step_cases zstd sha store action with ⟨contents, expires, rfl, same⟩ |
    ⟨id, call, outcome, next, returned, found, continues, _, same⟩ | same
  · rw [same, (store_files zstd store contents expires).1]
    exact present
  · rw [same]
    change (call.effect sha id store.files outcome (.location location)).isSome = true
    rcases effect_location sha store id call outcome location with kept | ⟨moving, _, written⟩
    · rw [kept]
      exact present
    · rw [written, (named.calls id call found).2 (Or.inr moving)]
      rfl
  · rw [same]
    exact present

/-- What a step of the store returns, a call has read back from its location. -/
theorem step_returned (zstd : Zstd) (sha : Sha256) (store : ArtifactStore) (action : Action) :
    ∃ new, (store.step zstd sha action).returned = store.returned ++ new ∧
      ∀ contents artifact, (contents, artifact) ∈ new →
        (store.files (.location artifact.storageLocation)).isSome = true ∧
          ∃ id call outcome, action = .advance id outcome ∧ store.calls id = some call ∧
            call.phase = .reading ∧ call.location sha = artifact.storageLocation := by
  rcases step_cases zstd sha store action with ⟨contents, expires, rfl, same⟩ |
    ⟨id, call, outcome, next, returned, found, continues, advanced, same⟩ | same
  · refine ⟨[], ?_, by simp⟩
    rw [same, (store_files zstd store contents expires).2, List.append_nil]
  · refine ⟨returned, by rw [same]; rfl, ?_⟩
    intro contents artifact member
    obtain ⟨rfl, reading, compressed, inPlace, verified⟩ :=
      continues.verified contents artifact member
    obtain ⟨_, _, rfl⟩ := verify_eq_ok zstd sha verified
    rcases advanced with advances | nothing
    · exact ⟨Option.isSome_iff_exists.mpr ⟨compressed, inPlace⟩, id, call, outcome, advances,
        found, reading, rfl⟩
    · rw [nothing] at member
      cases member
  · exact ⟨[], by rw [same, List.append_nil], by simp⟩

theorem Retained.storeStep (retained : Retained zstd sha stored s) (action : Action)
    (gives : action.gives stored) (exclusive : s.exclusive collation sha (.store action)) :
    Retained zstd sha stored (s.storeStep zstd sha action) := by
  obtain ⟨new, returned, read⟩ := step_returned zstd sha s.store action
  have held : (s.storeStep zstd sha action).held = s.held ++ new.map Prod.snd := by
    simp only [Retention.storeStep, returned, List.drop_left]
  have more {contents : Bytes} {artifact : RawArtifactMetadata}
      (member : (contents, artifact) ∈ s.store.returned) :
      (contents, artifact) ∈ (s.storeStep zstd sha action).store.returned := by
    change _ ∈ (s.store.step zstd sha action).returned
    rw [returned]
    exact List.mem_append_left new member
  -- a location that is needed only now has just been read
  have needed (location : Text) (now : (s.storeStep zstd sha action).needs location) :
      s.needs location ∨
        ((s.store.files (.location location)).isSome = true ∧
          ∀ pending ∈ s.prunes, location ∉ pending) := by
    rcases now with ⟨artifact, holding, same⟩ | row
    · rw [held] at holding
      rcases List.mem_append.mp holding with old | fresh
      · exact Or.inl (Or.inl ⟨artifact, old, same⟩)
      · obtain ⟨⟨contents, described⟩, inNew, rfl⟩ := List.mem_map.mp fresh
        obtain ⟨inPlace, id, call, outcome, rfl, found, reading, own⟩ :=
          read contents described inNew
        change s.unlisted sha (s.store.calls id) at exclusive
        rw [found] at exclusive
        rw [← same]
        refine Or.inr ⟨inPlace, ?_⟩
        rw [← own]
        exact exclusive reading
    · exact Or.inl (Or.inr row)
  constructor
  · exact step_named action gives retained.named
  · intro artifact holding
    rw [held] at holding
    rcases List.mem_append.mp holding with old | fresh
    · obtain ⟨contents, member⟩ := retained.heldReturned artifact old
      exact ⟨contents, more member⟩
    · obtain ⟨⟨contents, described⟩, inNew, rfl⟩ := List.mem_map.mp fresh
      refine ⟨contents, ?_⟩
      change _ ∈ (s.store.step zstd sha action).returned
      rw [returned]
      exact List.mem_append_right _ inNew
  · intro row inTable
    obtain ⟨contents, member⟩ := retained.rowsReturned row inTable
    exact ⟨contents, more member⟩
  · intro location now
    apply step_isSome retained.named action
    rcases needed location now with old | ⟨inPlace, _⟩
    · exact retained.present location old
    · exact inPlace
  · intro pending running location listed now
    rcases needed location now with old | ⟨_, unlisted⟩
    · exact retained.apart pending running location listed old
    · exact unlisted pending running listed

theorem Retained.record (retained : Retained zstd sha stored s) (place : Nat) (job : CrawlJobV1)
    (record : SuccessfulCrawlRecord) (fresh : FreshSnapshot) :
    Retained zstd sha stored (s.record place job record fresh) := by
  unfold Retention.record
  split
  · rename_i artifact found
    have held := List.mem_of_getElem? found
    dsimp only
    split
    · rename_i db success
      refine retained.shrink (fun _ => List.mem_of_mem_eraseIdx) ?_ (le_refl _)
        (fun pending running _ listed => Or.inl ⟨pending, running, listed⟩)
      intro row inTable
      rcases recordSuccess_artifacts success row inTable with old | new
      · exact Or.inl old
      · exact Or.inr (new ▸ held)
    · exact retained.shrink (fun _ => List.mem_of_mem_eraseIdx) (fun _ old => Or.inl old)
        (le_refl _) (fun pending running _ listed => Or.inl ⟨pending, running, listed⟩)
  · exact retained

theorem Retained.transaction (retained : Retained zstd sha stored s)
    (change : Database → Database) : Retained zstd sha stored (s.transaction change) := by
  unfold Retention.transaction
  split
  · rename_i same
    refine retained.shrink (fun _ => id) ?_ (le_refl _) (fun pending running _ listed => Or.inl ⟨pending, running, listed⟩)
    rw [same]
    exact fun _ old => Or.inl old
  · exact retained

theorem mem_expired {rows : List ArtifactRow} {now : Time} {location : Text}
    (listed : location ∈ expiredRawArtifactLocations collation rows now) {row : ArtifactRow}
    (inTable : row ∈ rows) (own : row.storageLocation = location) :
    row.retentionExpiresAt < now := by
  rw [expiredRawArtifactLocations, List.mem_insertionSort, List.mem_filter,
    List.all_eq_true] at listed
  have checked := listed.2 row inTable
  simpa [own] using checked

theorem Retained.query (retained : Retained zstd sha stored s)
    (exclusive : s.exclusive collation sha .query) :
    Retained zstd sha stored
      { s with
        prunes := s.prunes ++ [expiredRawArtifactLocations collation s.db.artifacts s.now] } := by
  refine retained.shrink (fun _ => id) (fun _ old => Or.inl old) (le_refl _) ?_
  intro pending running location listed
  rcases List.mem_append.mp running with old | new
  · exact Or.inl ⟨pending, old, listed⟩
  · rw [List.mem_singleton.mp new] at listed
    refine Or.inr ?_
    rintro (⟨artifact, holding, rfl⟩ | ⟨row, inTable, own, unexpired⟩)
    · exact exclusive artifact holding listed
    · have expired := mem_expired listed inTable own
      exact absurd unexpired (not_le.mpr expired)

/-- A prune that has less to delete. -/
theorem Retained.prune (retained : Retained zstd sha stored s) (place : Nat)
    {rest : List Text}
    (allowed : ∀ location ∈ rest, ∃ old ∈ s.prunes, location ∈ old) :
    Retained zstd sha stored { s with prunes := s.prunes.set place rest } := by
  refine retained.shrink (fun _ => id) (fun _ old => Or.inl old) (le_refl _) ?_
  intro pending running location listed
  rcases List.mem_or_eq_of_mem_set running with old | rfl
  · exact Or.inl ⟨pending, old, listed⟩
  · exact Or.inl (allowed location listed)

/-- The file of a location that is not needed may go. -/
theorem Retained.delete (retained : Retained zstd sha stored s) {location : Text}
    (unneeded : ¬ s.needs location) :
    Retained zstd sha stored
      { s with
        store := { s.store with
          files := Function.update s.store.files (.location location) none } } := by
  refine ⟨⟨?_, ?_, retained.named.returned⟩, retained.heldReturned, retained.rowsReturned, ?_,
    retained.apart⟩
  · intro other compressed present
    apply retained.named.files other compressed
    by_cases same : other = location
    · simp [same] at present
    · simpa [same] using present
  · intro id call started
    obtain ⟨given, complete⟩ := retained.named.calls id call started
    refine ⟨given, fun ready => ?_⟩
    change Function.update s.store.files (.location location) none (.temporary id) = _
    rw [Function.update_of_ne (by simp)]
    exact complete ready
  · intro other needed
    have apart : other ≠ location := by
      rintro rfl
      exact unneeded needed
    change (Function.update s.store.files (.location location) none (.location other)).isSome = _
    rw [Function.update_of_ne (by simpa using apart)]
    exact retained.present other needed

theorem Retained.remove (retained : Retained zstd sha stored s) (place : Nat) (ok : Bool) :
    Retained zstd sha stored (s.remove place ok) := by
  unfold Retention.remove
  split
  · rename_i location rest listed
    have running := List.mem_of_getElem? listed
    have unneeded := retained.apart _ running location List.mem_cons_self
    split
    · apply (retained.delete unneeded).prune
      intro other later
      exact ⟨_, running, List.mem_cons_of_mem location later⟩
    · exact retained.prune place (by simp)
  · exact retained

/-- The contents that an action gives to the store. -/
def RetentionAction.gives (stored : Bytes → Prop) : RetentionAction → Prop
  | .store action => action.gives stored
  | _ => True

theorem step_retained (action : RetentionAction) (gives : action.gives stored)
    (exclusive : s.exclusive collation sha action) (retained : Retained zstd sha stored s) :
    Retained zstd sha stored (s.step collation zstd sha action) := by
  cases action with
  | tick elapsed =>
      refine retained.shrink (fun _ => id) (fun _ old => Or.inl old) ?_
        (fun pending running _ listed => Or.inl ⟨pending, running, listed⟩)
      exact le_add_of_nonneg_right (Int.natCast_nonneg elapsed)
  | store action => exact retained.storeStep action gives exclusive
  | record place job record fresh => exact retained.record place job record fresh
  | abandon place =>
      exact retained.shrink (fun _ => List.mem_of_mem_eraseIdx) (fun _ old => Or.inl old)
        (le_refl _) (fun pending running _ listed => Or.inl ⟨pending, running, listed⟩)
  | transaction change => exact retained.transaction change
  | query => exact retained.query exclusive
  | remove place ok => exact retained.remove place ok
  | stopPrune place => exact retained.prune place (by simp)

end Steps

section Runs

variable (collation : Collation) (zstd : Zstd) (sha : Sha256)

/-- The bodies that the actions give to the store. -/
def givenBy (actions : List RetentionAction) (contents : Bytes) : Prop :=
  ∃ expires, RetentionAction.store (.store contents expires) ∈ actions

/-- In every run in which no prune overlaps a worker's use of a location that it
lists, every row that has not expired retrieves the body it was recorded for. -/
theorem retained_artifacts_retrievable (catalogue : Catalogue) (now : Time)
    (actions : List RetentionAction) (collisionFree : CollisionFree sha (givenBy actions))
    (exclusive : Guarded (Retention.step collation zstd sha) (Retention.exclusive collation sha)
      (Retention.initial catalogue now) actions) :
    let s := run (Retention.step collation zstd sha) (Retention.initial catalogue now) actions
    ∀ row ∈ s.db.artifacts, s.now ≤ row.retentionExpiresAt →
      ∃ contents, (contents, metadataOf row) ∈ s.store.returned ∧
        retrieveBlocking zstd sha s.store.files.read (metadataOf row) = .ok contents := by
  intro s row inTable unexpired
  have gives : ∀ action ∈ actions, action.gives (givenBy actions) := by
    intro action member
    cases action with
    | store action =>
        cases action with
        | store contents expires => exact ⟨expires, member⟩
        | advance id outcome => trivial
        | stop id outcome => trivial
    | _ => trivial
  have retained : Retained zstd sha (givenBy actions) s :=
    run_invariant_of_guarded
      (fun _ action ok before => step_retained action ok.1 ok.2 before) _ actions
      ((guarded_of_forall _ _ actions gives).and exclusive) (initial_retained catalogue now)
  obtain ⟨contents, member⟩ := retained.rowsReturned row inTable
  obtain ⟨compressed, expires, given, smallFile, described⟩ :=
    retained.named.returned contents _ member
  have location : row.storageLocation = locationFor (checksum sha contents) :=
    congrArg RawArtifactMetadata.storageLocation described
  have inPlace := retained.present _ (Or.inr ⟨row, inTable, location, unexpired⟩)
  obtain ⟨found, isFound⟩ := Option.isSome_iff_exists.mp inPlace
  rw [retained.named.file_eq collisionFree given isFound] at isFound
  refine ⟨contents, member, ?_⟩
  rw [described]
  exact retrieve_described zstd sha expires given.encoded given.small smallFile
    (orError_eq_ok.mpr isFound)

/-- A crawl of a page without content. -/
def emptyPage (capturedAt : Time) : SuccessfulCrawlRecord where
  snapshot := {
    requestedUrl := "https://example.com/".toList
    finalUrl := "https://example.com/".toList
    redirects := []
    responseStatus := 200
    responseHeaders := []
    bodySizeBytes := 0
    capturedAt := capturedAt
    countryObservation := none }
  artifact := none
  detections := []
  observations := []

/-- The page is crawled, and its artifact expires at 100; at 200 the page is
being crawled again. -/
def crawledAgain : List RetentionAction :=
  [.transaction fun db => run (exec plainUrlCrate) db
      [.createWithAudit 1 exampleDomain DomainCreationDefaults.crawlPolicy "operator".toList 0,
        .reserveDue 0 10 fun _ => ⟨10, 11, 12⟩, .claimAttempt (newJobWithCorrelation 1 12 11) 5],
    .store (.store [] 100)] ++ List.replicate 7 (.store (.advance 0 .ok)) ++
  [.record 0 (newJobWithCorrelation 1 12 11) (emptyPage 6) ⟨40, fun n => 50 + n⟩,
    .tick 200,
    .transaction fun db => run (exec plainUrlCrate) db
      [.requestDomainCrawl exampleDomain "operator".toList 200,
        .reserveDue 200 10 fun _ => ⟨20, 21, 22⟩,
        .claimAttempt (newJobWithCorrelation 1 22 21) 200]]

/-- The second crawl stores the same body, which reuses the file. -/
def storedAgain : List RetentionAction :=
  .store (.store [] 400) :: List.replicate 2 (.store (.advance 1 .ok)) ++
    [.record 0 (newJobWithCorrelation 1 22 21) (emptyPage 201) ⟨60, fun n => 70 + n⟩]

/-- Between the query and the deletion the file is reused and recorded. -/
theorem prune_removes_retained :
    let s := run (Retention.step codePoints framing shortDigest)
      (Retention.initial Catalogue.empty 0)
      (crawledAgain ++ [.query] ++ storedAgain ++ [.remove 0 true])
    ∃ row ∈ s.db.artifacts, s.now ≤ row.retentionExpiresAt ∧
      (retrieveBlocking framing shortDigest s.store.files.read (metadataOf row)).isOk = false := by
  decide +kernel

/-- The prune is over before the body is stored again: the file is written anew, beside
the one of another body. -/
def prunedBetween : List RetentionAction :=
  crawledAgain ++ [.query, .remove 0 true, .store (.store [] 400), .store (.store [0x61] 300)] ++
    List.replicate 7 (.store (.advance 1 .ok)) ++ List.replicate 7 (.store (.advance 2 .ok)) ++
    [.record 0 (newJobWithCorrelation 1 22 21) (emptyPage 201) ⟨60, fun n => 70 + n⟩]

theorem givenBy_prunedBetween : CollisionFree shortDigest (givenBy prunedBetween) := by
  apply shortDigest_collisionFree
  rintro contents ⟨expires, member⟩
  have given : contents = [] ∧ expires = 100 ∨ contents = [] ∧ expires = 400 ∨
      contents = [0x61] ∧ expires = 300 := by
    simpa [prunedBetween, crawledAgain, List.replicate_succ] using member
  rcases given with ⟨same, _⟩ | ⟨same, _⟩ | ⟨same, _⟩
  · exact Or.inl same
  · exact Or.inl same
  · exact Or.inr same

theorem prunedBetween_retained :
    let s := run (Retention.step codePoints framing shortDigest)
      (Retention.initial Catalogue.empty 0) prunedBetween
    (s.db.artifacts.map fun row => decide (s.now ≤ row.retentionExpiresAt)) = [false, true] ∧
      ∀ row ∈ s.db.artifacts, s.now ≤ row.retentionExpiresAt →
        ∃ contents, (contents, metadataOf row) ∈ s.store.returned ∧
          retrieveBlocking framing shortDigest s.store.files.read (metadataOf row) =
            .ok contents :=
  ⟨by decide +kernel,
    retained_artifacts_retrievable codePoints framing shortDigest Catalogue.empty 0 prunedBetween
      givenBy_prunedBetween (by decide +kernel)⟩

end Runs

end TechAtlas.Storage
