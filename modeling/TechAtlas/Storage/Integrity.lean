import TechAtlas.Storage.Artifacts

set_option autoImplicit false

/- What an artifact's file holds is decided by its name: every file at a location
is the compression of the one stored body with that checksum. -/
namespace TechAtlas.Storage

open Library
open TechAtlas.Store

section Names

theorem hexDigit_toNat : ∀ n < 16,
    (hexDigit n).toNat = if n < 10 then 48 + n else 87 + n := by
  decide

theorem hexDigit_inj {m n : Nat} (first : m < 16) (second : n < 16)
    (same : hexDigit m = hexDigit n) : m = n := by
  have values := congrArg Char.toNat same
  rw [hexDigit_toNat m first, hexDigit_toNat n second] at values
  split at values <;> split at values <;> omega

theorem lowerHex_inj {a b : UInt8} (same : lowerHex a = lowerHex b) : a = b := by
  have below (byte : UInt8) : byte.toNat < 256 := byte.toNat_lt
  simp only [lowerHex, List.cons.injEq, and_true] at same
  obtain ⟨upper, lower⟩ := same
  have high := hexDigit_inj (by have := below a; omega) (by have := below b; omega) upper
  have low := hexDigit_inj (Nat.mod_lt _ (by omega)) (Nat.mod_lt _ (by omega)) lower
  apply UInt8.toNat_inj.mp
  omega

theorem flatMap_lowerHex_length (bytes : Bytes) :
    (bytes.flatMap lowerHex).length = 2 * bytes.length := by
  induction bytes with
  | nil => rfl
  | cons byte rest ih =>
      rw [List.flatMap_cons, List.length_append, ih, List.length_cons]
      change 2 + 2 * rest.length = _
      omega

theorem flatMap_lowerHex_inj {a b : Bytes} (same : a.flatMap lowerHex = b.flatMap lowerHex) :
    a = b := by
  induction a generalizing b with
  | nil =>
      have lengths := congrArg List.length same
      rw [flatMap_lowerHex_length, flatMap_lowerHex_length] at lengths
      exact (List.length_eq_zero_iff.mp (by simpa using lengths.symm)).symm
  | cons byte rest ih =>
      cases b with
      | nil => cases same
      | cons other others =>
          rw [List.flatMap_cons, List.flatMap_cons] at same
          obtain ⟨first, later⟩ := List.append_inj same rfl
          rw [lowerHex_inj first, ih later]

variable (sha : Sha256)

theorem checksum_length (contents : Bytes) : (checksum sha contents).length = 64 := by
  rw [checksum, flatMap_lowerHex_length, sha.length]

theorem checksum_inj {a b : Bytes} (same : checksum sha a = checksum sha b) :
    sha.digest a = sha.digest b := flatMap_lowerHex_inj same

theorem hexDigit_plain : ∀ n < 16, isWhitespace (hexDigit n) = false := by
  decide

theorem checksum_characters {contents : Bytes} {c : Char} (member : c ∈ checksum sha contents) :
    ∃ n < 16, c = hexDigit n := by
  obtain ⟨byte, _, digit⟩ := List.mem_flatMap.mp member
  have below : byte.toNat < 256 := byte.toNat_lt
  rcases List.mem_cons.mp digit with rfl | last
  · exact ⟨_, by omega, rfl⟩
  · exact ⟨_, Nat.mod_lt _ (by omega), List.mem_singleton.mp last⟩

theorem checksum_plain (contents : Bytes) :
    (checksum sha contents).all (fun c => !isWhitespace c) = true := by
  apply List.all_eq_true.mpr
  intro c member
  obtain ⟨n, below, rfl⟩ := checksum_characters sha member
  rw [hexDigit_plain n below]
  rfl

theorem location_plain (contents : Bytes) :
    (locationFor (checksum sha contents)).all (fun c => !isWhitespace c) = true := by
  have before : "sha256/".toList.all (fun c => !isWhitespace c) = true := by decide +kernel
  have after : ".zst".toList.all (fun c => !isWhitespace c) = true := by decide +kernel
  have shard : ((checksum sha contents).take 2).all (fun c => !isWhitespace c) = true := by
    apply List.all_eq_true.mpr
    intro c member
    exact List.all_eq_true.mp (checksum_plain sha contents) c (List.mem_of_mem_take member)
  change ("sha256/".toList ++ (checksum sha contents).take 2 ++ '/' :: checksum sha contents ++
    ".zst".toList).all (fun c => !isWhitespace c) = true
  rw [List.all_append, List.all_append, List.all_append, List.all_cons, before, after, shard,
    checksum_plain]
  rfl

theorem trim_of_plain {text : Text} (plain : text.all (fun c => !isWhitespace c) = true) :
    trim text = text := by
  apply trim_eq_self
  intro c member
  have kept := List.all_eq_true.mp plain c member
  rwa [Bool.not_eq_true'] at kept

theorem location_inj {a b : Bytes}
    (same : locationFor (checksum sha a) = locationFor (checksum sha b)) :
    checksum sha a = checksum sha b := by
  have named := (List.append_inj' same rfl).1
  have lengths : ('/' :: checksum sha a).length = ('/' :: checksum sha b).length := by
    rw [List.length_cons, List.length_cons, checksum_length, checksum_length]
  exact List.tail_eq_of_cons_eq (List.append_inj' named lengths).2

end Names

section Metadata

variable (zstd : Zstd) (sha : Sha256)

/-- The metadata of a body whose file holds these bytes. -/
def describing (contents compressed : Bytes) (retentionExpiresAt : Time) :
    RawArtifactMetadata where
  storageLocation := locationFor (checksum sha contents)
  checksumSha256 := checksum sha contents
  compression := .zstd
  uncompressedSizeBytes := contents.length
  compressedSizeBytes := compressed.length
  retentionExpiresAt := retentionExpiresAt

theorem sizeOfBytes_eq_ok {bytes : Bytes} {size : Nat} :
    sizeOfBytes bytes = .ok size ↔ bytes.length < 2 ^ 64 ∧ bytes.length = size := by
  unfold sizeOfBytes
  by_cases fits : bytes.length < 2 ^ 64
  · rw [if_pos fits]
    exact ⟨fun same => ⟨fits, Except.ok.inj same⟩, fun facts => congrArg Except.ok facts.2⟩
  · rw [if_neg fits]
    constructor
    · intro same
      cases same
    · intro facts
      exact absurd facts.1 fits

theorem responseBody_fields {location checksumSha256 : Text}
    {compression : RawArtifactCompression} {uncompressed compressed : Nat} {expires : Time}
    {artifact : RawArtifactMetadata}
    (success : responseBody location checksumSha256 compression uncompressed compressed expires =
      .ok artifact) :
    artifact =
      { storageLocation := trim location
        checksumSha256 := trim checksumSha256
        compression := compression
        uncompressedSizeBytes := uncompressed
        compressedSizeBytes := compressed
        retentionExpiresAt := expires } := by
  unfold responseBody at success
  simp only at success
  split at success
  · cases success
  · split at success
    · cases success
    · split at success
      · cases success
      · exact (Except.ok.inj success).symm

/-- What a call that returns metadata has found at its location. -/
theorem verify_eq_ok {call : StoreCall} {storedCompressed : Bytes}
    {artifact : RawArtifactMetadata}
    (success : call.verify zstd sha storedCompressed = .ok artifact) :
    zstd.decodeAll storedCompressed = some call.contents ∧ storedCompressed.length < 2 ^ 64 ∧
      artifact = describing sha call.contents storedCompressed call.retentionExpiresAt := by
  unfold StoreCall.verify at success
  obtain ⟨storedContents, decoded, success⟩ := bind_eq_ok.mp success
  obtain ⟨_, same, success⟩ := bind_eq_ok.mp success
  obtain ⟨size, sized, success⟩ := bind_eq_ok.mp success
  rw [orError_eq_ok] at decoded
  have equal : storedContents = call.contents := by simpa using require_eq_ok.mp same
  obtain ⟨fits, rfl⟩ := sizeOfBytes_eq_ok.mp sized
  have fields := responseBody_fields (mapError_eq_ok.mp success)
  rw [StoreCall.location, trim_of_plain (location_plain sha call.contents),
    trim_of_plain (checksum_plain sha call.contents)] at fields
  exact ⟨equal ▸ decoded, fits, fields⟩

/-- Reading back through the metadata of a body whose file is in place. -/
theorem retrieve_described {read : Text → Except RawArtifactStoreError Bytes}
    {contents compressed : Bytes} (expires : Time)
    (encoded : zstd.encodeAll contents = some compressed) (small : contents.length < 2 ^ 64)
    (smallFile : compressed.length < 2 ^ 64)
    (present : read (locationFor (checksum sha contents)) = .ok compressed) :
    retrieveBlocking zstd sha read (describing sha contents compressed expires) =
      .ok contents := by
  have decoded := zstd.decoded contents compressed encoded
  have fileSize := sizeOfBytes_eq_ok.mpr ⟨smallFile, rfl⟩
  have bodySize := sizeOfBytes_eq_ok.mpr ⟨small, rfl⟩
  simp [retrieveBlocking, describing, require, orError, present, decoded, fileSize, bodySize,
    bind, Except.bind]

/-- Whatever the files hold, what is retrieved has the recorded checksum and size. -/
theorem retrieve_eq_ok {read : Text → Except RawArtifactStoreError Bytes}
    {artifact : RawArtifactMetadata} {contents : Bytes}
    (success : retrieveBlocking zstd sha read artifact = .ok contents) :
    checksum sha contents = artifact.checksumSha256 ∧
      contents.length = artifact.uncompressedSizeBytes := by
  unfold retrieveBlocking at success
  obtain ⟨_, _, success⟩ := bind_eq_ok.mp success
  obtain ⟨_, _, success⟩ := bind_eq_ok.mp success
  obtain ⟨compressed, _, success⟩ := bind_eq_ok.mp success
  obtain ⟨_, _, success⟩ := bind_eq_ok.mp success
  obtain ⟨_, _, success⟩ := bind_eq_ok.mp success
  obtain ⟨decoded, _, success⟩ := bind_eq_ok.mp success
  obtain ⟨size, sized, success⟩ := bind_eq_ok.mp success
  obtain ⟨_, verified, success⟩ := bind_eq_ok.mp success
  cases success
  obtain ⟨_, rfl⟩ := sizeOfBytes_eq_ok.mp sized
  have checks := require_eq_ok.mp verified
  rw [Bool.and_eq_true, beq_iff_eq, beq_iff_eq] at checks
  exact ⟨checks.2, checks.1⟩

end Metadata

section Named

variable (zstd : Zstd) (sha : Sha256) (stored : Bytes → Prop)

/-- A body that was given to `store` and compressed to these bytes. -/
structure Stored (contents compressed : Bytes) : Prop where
  given : stored contents
  encoded : zstd.encodeAll contents = some compressed
  small : contents.length < 2 ^ 64

/-- Every file at a location is that of a stored body, every file about to be
renamed is complete, and what was returned describes a stored body. -/
structure Named (s : ArtifactStore) : Prop where
  files : ∀ location compressed, s.files (.location location) = some compressed →
    ∃ contents, Stored zstd stored contents compressed ∧
      locationFor (checksum sha contents) = location
  calls : ∀ id call, s.calls id = some call →
    Stored zstd stored call.contents call.compressed ∧
      (call.phase = .syncing ∨ call.phase = .moving →
        s.files (.temporary id) = some call.compressed)
  returned : ∀ contents artifact, (contents, artifact) ∈ s.returned →
    ∃ compressed expires, Stored zstd stored contents compressed ∧
      compressed.length < 2 ^ 64 ∧ artifact = describing sha contents compressed expires

theorem initial_named : Named zstd sha stored ArtifactStore.initial where
  files := by simp [ArtifactStore.initial]
  calls := by simp [ArtifactStore.initial]
  returned := by simp [ArtifactStore.initial]

variable {zstd sha stored} {s : ArtifactStore} {id : Nat} {call : StoreCall}

/-- Only a rename writes to a location, and it writes the temporary file. -/
theorem effect_location (sha : Sha256) (s : ArtifactStore) (id : Nat) (call : StoreCall)
    (outcome : Outcome) (location : Text) :
    call.effect sha id s.files outcome (.location location) = s.files (.location location) ∨
      (call.phase = .moving ∧ location = call.location sha ∧
        call.effect sha id s.files outcome (.location location) = s.files (.temporary id)) := by
  by_cases moves : call.phase = .moving ∧ outcome = .ok ∧ location = call.location sha
  · obtain ⟨phase, rfl, rfl⟩ := moves
    refine Or.inr ⟨phase, rfl, ?_⟩
    simp [StoreCall.effect, phase]
  · left
    unfold StoreCall.effect
    cases outcome <;> cases phase : call.phase <;> simp
    have other : location ≠ call.location sha := by simpa [phase] using moves
    rw [Function.update_of_ne (by simpa using other)]

theorem effect_temporary (outcome : Outcome) {other : Nat} (apart : other ≠ id) :
    call.effect sha id s.files outcome (.temporary other) = s.files (.temporary other) := by
  unfold StoreCall.effect
  cases outcome <;> cases call.phase <;> simp [apart]

theorem effect_writing (phase : call.phase = .writing) :
    call.effect sha id s.files .ok (.temporary id) = some call.compressed := by
  simp [StoreCall.effect, phase]

theorem effect_syncing (phase : call.phase = .syncing) :
    call.effect sha id s.files .ok = s.files := by
  simp [StoreCall.effect, phase]

/-- How a call goes on: it keeps its contents, and it is ready to rename only
after a complete write. -/
theorem continue_ready {outcome : Outcome} {phase : Phase}
    (next : call.continue zstd sha s.files outcome = .next phase)
    (ready : phase = .syncing ∨ phase = .moving) :
    outcome = .ok ∧ (call.phase = .writing ∨ call.phase = .syncing) := by
  unfold StoreCall.continue at next
  cases outcome with
  | ok =>
      cases started : call.phase <;> simp only [started] at next
      case writing => exact ⟨rfl, Or.inl rfl⟩
      case syncing => exact ⟨rfl, Or.inr rfl⟩
      all_goals
        exfalso
        revert next
        rcases ready with rfl | rfl <;> (try split) <;> simp
  | failed written =>
      exfalso
      revert next
      rcases ready with rfl | rfl <;> cases call.phase <;> simp

/-- A call returns metadata only after reading its file back. -/
theorem continue_finished {outcome : Outcome} {artifact : RawArtifactMetadata}
    (finished : call.continue zstd sha s.files outcome = .finished (.ok artifact)) :
    call.phase = .reading ∧
      ∃ compressed, s.files (.location (call.location sha)) = some compressed ∧
        call.verify zstd sha compressed = .ok artifact := by
  unfold StoreCall.continue at finished
  cases outcome with
  | ok =>
      cases started : call.phase <;> simp only [started] at finished
      case reading =>
        split at finished
        · rename_i compressed found
          exact ⟨rfl, compressed, found, Progress.finished.inj finished⟩
        · simp at finished
      all_goals
        exfalso
        revert finished
        (try split) <;> simp
  | failed written =>
      exfalso
      revert finished
      cases call.phase <;> simp

/-- What may become of a call after an operation. -/
structure Continues (zstd : Zstd) (sha : Sha256) (s : ArtifactStore) (call : StoreCall)
    (outcome : Outcome) (next : Option StoreCall)
    (returned : List (Bytes × RawArtifactMetadata)) : Prop where
  same : ∀ after, next = some after →
    after.contents = call.contents ∧ after.compressed = call.compressed
  ready : ∀ after, next = some after → (after.phase = .syncing ∨ after.phase = .moving) →
    outcome = .ok ∧ (call.phase = .writing ∨ call.phase = .syncing)
  verified : ∀ contents artifact, (contents, artifact) ∈ returned →
    contents = call.contents ∧ call.phase = .reading ∧
      ∃ compressed, s.files (.location (call.location sha)) = some compressed ∧
        call.verify zstd sha compressed = .ok artifact

theorem continues_stop (outcome : Outcome) : Continues zstd sha s call outcome none [] where
  same := by simp
  ready := by simp
  verified := by simp

/-- An advance is one operation. -/
theorem advance_cases (found : s.calls id = some call) (outcome : Outcome) :
    ∃ next returned, Continues zstd sha s call outcome next returned ∧
      s.advance zstd sha id outcome =
        s.operate id (call.effect sha id s.files outcome) next returned := by
  unfold ArtifactStore.advance
  simp only [found]
  cases progress : call.continue zstd sha s.files outcome with
  | next phase =>
      refine ⟨_, _, ⟨?_, ?_, by simp⟩, rfl⟩
      · intro after same
        cases same
        exact ⟨rfl, rfl⟩
      · intro after same ready
        cases same
        exact continue_ready progress ready
  | finished result =>
      cases result with
      | error reason => exact ⟨_, _, continues_stop outcome, rfl⟩
      | ok artifact =>
          refine ⟨_, _, ⟨by simp, by simp, ?_⟩, rfl⟩
          intro contents described member
          cases List.mem_singleton.mp member
          exact ⟨rfl, continue_finished progress⟩

/-- Every step begins a call, makes one operation of a call or does nothing; only
an advance returns metadata. -/
theorem step_cases (zstd : Zstd) (sha : Sha256) (s : ArtifactStore) (action : Action) :
    (∃ contents expires, action = .store contents expires ∧
      s.step zstd sha action = s.store zstd contents expires) ∨
    (∃ id call outcome next returned, s.calls id = some call ∧
      Continues zstd sha s call outcome next returned ∧
      (action = .advance id outcome ∨ returned = []) ∧
      s.step zstd sha action =
        s.operate id (call.effect sha id s.files outcome) next returned) ∨
    s.step zstd sha action = s := by
  cases action with
  | store contents expires => exact Or.inl ⟨contents, expires, rfl, rfl⟩
  | advance id outcome =>
      cases found : s.calls id with
      | none =>
          refine Or.inr (Or.inr ?_)
          simp only [ArtifactStore.step, ArtifactStore.advance, found]
      | some call =>
          obtain ⟨next, returned, continues, same⟩ := advance_cases found outcome
          exact Or.inr (Or.inl ⟨id, call, outcome, next, returned, found, continues, Or.inl rfl,
            same⟩)
  | stop id outcome =>
      cases found : s.calls id with
      | none =>
          refine Or.inr (Or.inr ?_)
          simp only [ArtifactStore.step, ArtifactStore.stop, found]
      | some call =>
          refine Or.inr (Or.inl ⟨id, call, outcome, none, [], found, continues_stop outcome,
            Or.inr rfl, ?_⟩)
          simp only [ArtifactStore.step, ArtifactStore.stop, found]

theorem Named.operate (named : Named zstd sha stored s) (found : s.calls id = some call)
    {outcome : Outcome} {next : Option StoreCall}
    {returned : List (Bytes × RawArtifactMetadata)}
    (continues : Continues zstd sha s call outcome next returned) :
    Named zstd sha stored
      (s.operate id (call.effect sha id s.files outcome) next returned) := by
  obtain ⟨given, complete⟩ := named.calls id call found
  constructor
  · intro location compressed present
    rcases effect_location sha s id call outcome location with kept | ⟨moving, rfl, written⟩
    · exact named.files location compressed (kept.symm.trans present)
    · have whole := complete (Or.inr moving)
      have same : call.compressed = compressed :=
        Option.some.inj (whole.symm.trans (written.symm.trans present))
      exact ⟨call.contents, same ▸ given, rfl⟩
  · intro other running started
    simp only [ArtifactStore.operate, Function.update_apply] at started ⊢
    by_cases own : other = id
    · rw [if_pos own] at started
      obtain ⟨contents, compressed⟩ := continues.same running started
      rw [contents, compressed]
      refine ⟨given, ?_⟩
      intro ready
      obtain ⟨rfl, writing | syncing⟩ := continues.ready running started ready
      · rw [own]
        exact effect_writing writing
      · rw [own, effect_syncing syncing]
        exact complete (Or.inl syncing)
    · rw [if_neg own] at started
      obtain ⟨stored, whole⟩ := named.calls other running started
      exact ⟨stored, fun ready => (effect_temporary outcome own).trans (whole ready)⟩
  · intro contents artifact member
    rcases List.mem_append.mp member with old | new
    · exact named.returned contents artifact old
    · obtain ⟨rfl, _, compressed, present, verified⟩ := continues.verified contents artifact new
      obtain ⟨decoded, smallFile, described⟩ := verify_eq_ok zstd sha verified
      obtain ⟨origin, stored, _⟩ := named.files _ compressed present
      have same : origin = call.contents :=
        Option.some.inj ((zstd.decoded origin compressed stored.encoded).symm.trans decoded)
      exact ⟨compressed, _, same ▸ stored, smallFile, described⟩

theorem Named.store (named : Named zstd sha stored s) {contents : Bytes} (expires : Time)
    (given : stored contents) : Named zstd sha stored (s.store zstd contents expires) := by
  unfold ArtifactStore.store
  split
  · rename_i call begun
    unfold StoreCall.begin at begun
    obtain ⟨compressed, encoded, begun⟩ := bind_eq_ok.mp begun
    obtain ⟨size, sized, begun⟩ := bind_eq_ok.mp begun
    cases begun
    rw [orError_eq_ok] at encoded
    refine ⟨named.files, ?_, named.returned⟩
    intro id call started
    simp only [Function.update_apply] at started
    split at started
    · cases started
      exact ⟨⟨given, encoded, (sizeOfBytes_eq_ok.mp sized).1⟩, by simp⟩
    · exact named.calls id call started
  · exact named

/-- The contents that an action gives to the store. -/
def Action.gives (stored : Bytes → Prop) : Action → Prop
  | .store contents _ => stored contents
  | _ => True

theorem step_named (action : Action) (gives : action.gives stored)
    (named : Named zstd sha stored s) : Named zstd sha stored (s.step zstd sha action) := by
  rcases step_cases zstd sha s action with ⟨contents, expires, rfl, same⟩ |
    ⟨id, call, outcome, next, returned, found, continues, _, same⟩ | same
  · rw [same]
    exact named.store expires gives
  · rw [same]
    exact named.operate found continues
  · rw [same]
    exact named

theorem store_files (zstd : Zstd) (s : ArtifactStore) (contents : Bytes) (expires : Time) :
    (s.store zstd contents expires).files = s.files ∧
      (s.store zstd contents expires).returned = s.returned := by
  unfold ArtifactStore.store
  split <;> exact ⟨rfl, rfl⟩

end Named

section Kept

variable {zstd : Zstd} {sha : Sha256} {stored : Bytes → Prop} {s : ArtifactStore} {id : Nat}
  {call : StoreCall}

/-- No two of the bodies have one digest. -/
def CollisionFree (sha : Sha256) (stored : Bytes → Prop) : Prop :=
  ∀ a b, stored a → stored b → sha.digest a = sha.digest b → a = b

/-- A file at the location of a stored body is its compression. -/
theorem Named.file_eq (named : Named zstd sha stored s) (free : CollisionFree sha stored)
    {contents compressed found : Bytes} (own : Stored zstd stored contents compressed)
    (present : s.files (.location (locationFor (checksum sha contents))) = some found) :
    found = compressed := by
  obtain ⟨other, given, location⟩ := named.files _ found present
  have digests := checksum_inj sha (location_inj sha location)
  have same : other = contents := free other contents given.given own.given digests
  have encoded := given.encoded
  rw [same, own.encoded] at encoded
  exact (Option.some.inj encoded).symm

/-- A file in place is not changed by any writer. -/
theorem Named.effect_kept (named : Named zstd sha stored s) (free : CollisionFree sha stored)
    (found : s.calls id = some call) (outcome : Outcome) {location : Text} {compressed : Bytes}
    (present : s.files (.location location) = some compressed) :
    call.effect sha id s.files outcome (.location location) = some compressed := by
  rcases effect_location sha s id call outcome location with kept | ⟨moving, rfl, written⟩
  · rw [kept, present]
  · obtain ⟨given, complete⟩ := named.calls id call found
    rw [written, complete (Or.inr moving), named.file_eq free given present]

/-- The file of every body that metadata was returned for is in place. -/
def Present (zstd : Zstd) (sha : Sha256) (s : ArtifactStore) : Prop :=
  ∀ contents artifact, (contents, artifact) ∈ s.returned →
    ∀ compressed, zstd.encodeAll contents = some compressed →
      s.files (.location (locationFor (checksum sha contents))) = some compressed

theorem Present.operate (present : Present zstd sha s) (named : Named zstd sha stored s)
    (free : CollisionFree sha stored) (found : s.calls id = some call) {outcome : Outcome}
    {next : Option StoreCall} {returned : List (Bytes × RawArtifactMetadata)}
    (continues : Continues zstd sha s call outcome next returned) :
    Present zstd sha (s.operate id (call.effect sha id s.files outcome) next returned) := by
  intro contents artifact member compressed encoded
  apply named.effect_kept free found
  rcases List.mem_append.mp member with old | new
  · exact present contents artifact old compressed encoded
  · obtain ⟨rfl, _, onDisk, inPlace, _⟩ := continues.verified contents artifact new
    have given := (named.calls id call found).1
    have same : call.compressed = compressed :=
      Option.some.inj (given.encoded.symm.trans encoded)
    rw [← same, ← named.file_eq free given inPlace]
    exact inPlace

theorem step_present (free : CollisionFree sha stored) (action : Action)
    (named : Named zstd sha stored s) (present : Present zstd sha s) :
    Present zstd sha (s.step zstd sha action) := by
  rcases step_cases zstd sha s action with ⟨contents, expires, rfl, same⟩ |
    ⟨id, call, outcome, next, returned, found, continues, _, same⟩ | same
  · obtain ⟨files, returned⟩ := store_files zstd s contents expires
    rw [same, Present, files, returned]
    exact present
  · rw [same]
    exact present.operate named free found continues
  · rw [same]
    exact present

end Kept

section Runs

variable (zstd : Zstd) (sha : Sha256)

/-- The bodies that the actions give to the store. -/
def storedBy (actions : List Action) (contents : Bytes) : Prop :=
  ∃ expires, Action.store contents expires ∈ actions

theorem run_intact (actions : List Action) (free : CollisionFree sha (storedBy actions)) :
    let s := run (ArtifactStore.step zstd sha) ArtifactStore.initial actions
    Named zstd sha (storedBy actions) s ∧ Present zstd sha s := by
  have gives : ∀ action ∈ actions, action.gives (storedBy actions) := by
    intro action member
    cases action with
    | store contents expires => exact ⟨expires, member⟩
    | advance id outcome => trivial
    | stop id outcome => trivial
  apply run_invariant_of_guarded
    (P := fun s => Named zstd sha (storedBy actions) s ∧ Present zstd sha s)
  · intro s action given ⟨named, present⟩
    exact ⟨step_named action given named, step_present free action named present⟩
  · exact guarded_of_forall _ _ actions gives
  · refine ⟨initial_named zstd sha _, ?_⟩
    intro contents artifact member
    cases member

/-- After any interleaving of writers, each of whose file operations may fail and
each of which may stop at any of them: every metadata value that was returned
retrieves the body it was returned for, and two of them share a location exactly
when their bodies are equal. Whatever the files hold, a retrieved body has the
checksum and the size of its metadata. -/
theorem stored_artifacts_retrievable (actions : List Action)
    (collisionFree : CollisionFree sha (storedBy actions)) :
    let s := run (ArtifactStore.step zstd sha) ArtifactStore.initial actions
    (∀ contents artifact, (contents, artifact) ∈ s.returned →
      retrieveBlocking zstd sha s.files.read artifact = .ok contents) ∧
    (∀ contents artifact other otherArtifact, (contents, artifact) ∈ s.returned →
      (other, otherArtifact) ∈ s.returned →
      (artifact.storageLocation = otherArtifact.storageLocation ↔ contents = other)) ∧
    ∀ read artifact contents, retrieveBlocking zstd sha read artifact = .ok contents →
      checksum sha contents = artifact.checksumSha256 ∧
        contents.length = artifact.uncompressedSizeBytes := by
  intro s
  obtain ⟨named, present⟩ := run_intact zstd sha actions collisionFree
  refine ⟨?_, ?_, fun read artifact contents => retrieve_eq_ok zstd sha⟩
  · intro contents artifact member
    obtain ⟨compressed, expires, given, smallFile, rfl⟩ := named.returned contents artifact member
    have inPlace := present contents _ member compressed given.encoded
    apply retrieve_described zstd sha expires given.encoded given.small smallFile
    exact orError_eq_ok.mpr inPlace
  · intro contents artifact other otherArtifact member otherMember
    obtain ⟨_, _, given, _, rfl⟩ := named.returned contents artifact member
    obtain ⟨_, _, otherGiven, _, rfl⟩ := named.returned other otherArtifact otherMember
    constructor
    · intro location
      have digests := checksum_inj sha (location_inj sha location)
      exact collisionFree contents other given.given otherGiven.given digests
    · rintro rfl
      rfl

/-- The frame that `encode_all` makes of an empty body. -/
def emptyFrame : Bytes := [0x28, 0xb5, 0x2f, 0xfd, 0x20, 0x00, 0x01, 0x00, 0x00]

/-- What `encode_all` puts before a body of one byte. -/
def byteFrame : Bytes := [0x28, 0xb5, 0x2f, 0xfd, 0x00, 0x58, 0x09, 0x00, 0x00]

def framing : Zstd where
  encodeAll
    | [] => some emptyFrame
    | contents => some (byteFrame ++ contents)
  decodeAll compressed :=
    if compressed = emptyFrame then some []
    else if byteFrame.isPrefixOf compressed then some (compressed.drop 9)
    else none
  decoded := by
    intro contents compressed encoded
    cases contents with
    | nil =>
        cases encoded
        rfl
    | cons byte rest =>
        cases encoded
        rfl

/-- The digests of the empty body and of the letter `a`. -/
def shortDigest : Sha256 where
  digest
    | [] =>
        [0xe3, 0xb0, 0xc4, 0x42, 0x98, 0xfc, 0x1c, 0x14, 0x9a, 0xfb, 0xf4, 0xc8, 0x99, 0x6f, 0xb9,
          0x24, 0x27, 0xae, 0x41, 0xe4, 0x64, 0x9b, 0x93, 0x4c, 0xa4, 0x95, 0x99, 0x1b, 0x78, 0x52,
          0xb8, 0x55]
    | _ =>
        [0xca, 0x97, 0x81, 0x12, 0xca, 0x1b, 0xbd, 0xca, 0xfa, 0xc2, 0x31, 0xb3, 0x9a, 0x23, 0xdc,
          0x4d, 0xa7, 0x86, 0xef, 0xf8, 0x14, 0x7c, 0x4e, 0x72, 0xb9, 0x80, 0x77, 0x85, 0xaf, 0xee,
          0x48, 0xbb]
  length contents := by cases contents <;> rfl

/-- The two bodies have different digests. -/
theorem shortDigest_collisionFree {stored : Bytes → Prop}
    (short : ∀ contents, stored contents → contents = [] ∨ contents = [0x61]) :
    CollisionFree shortDigest stored := by
  intro a b given other same
  rcases short a given with rfl | rfl <;> rcases short b other with rfl | rfl
  · rfl
  · exact absurd same (by decide)
  · exact absurd same (by decide)
  · rfl

/-- Two writers of an empty body and one of the letter: the first finishes while the others
write, and the write of the second then fails. -/
def threeWriters : List Action :=
  [.store [] 5, .store [] 9, .store [0x61] 7] ++ List.replicate 3 (.advance 1 .ok) ++
    List.replicate 4 (.advance 2 .ok) ++ List.replicate 7 (.advance 0 .ok) ++
    [.advance 1 (.failed 4)] ++ List.replicate 3 (.advance 2 .ok) ++
    List.replicate 3 (.advance 1 .ok)

theorem threeWriters_retrievable :
    let s := run (ArtifactStore.step framing shortDigest) ArtifactStore.initial threeWriters
    let first := describing shortDigest [] emptyFrame 5
    let second := describing shortDigest [] emptyFrame 9
    let letter := describing shortDigest [0x61] (byteFrame ++ [0x61]) 7
    s.returned = [([], first), ([0x61], letter), ([], second)] ∧
      retrieveBlocking framing shortDigest s.files.read first = .ok [] ∧
      retrieveBlocking framing shortDigest s.files.read letter = .ok [0x61] ∧
      retrieveBlocking framing shortDigest s.files.read second = .ok [] := by
  intro s first second letter
  have returned : s.returned = [([], first), ([0x61], letter), ([], second)] := by decide +kernel
  have free : CollisionFree shortDigest (storedBy threeWriters) := by
    apply shortDigest_collisionFree
    rintro contents ⟨expires, member⟩
    have given : contents = [] ∧ expires = 5 ∨ contents = [] ∧ expires = 9 ∨
        contents = [0x61] ∧ expires = 7 := by
      simpa [threeWriters, List.replicate_succ] using member
    rcases given with ⟨same, _⟩ | ⟨same, _⟩ | ⟨same, _⟩
    · exact Or.inl same
    · exact Or.inl same
    · exact Or.inr same
  have retrieved := (stored_artifacts_retrievable framing shortDigest threeWriters free).1
  exact ⟨returned, retrieved [] first (returned ▸ List.mem_cons_self),
    retrieved [0x61] letter (returned ▸ List.mem_cons_of_mem _ List.mem_cons_self),
    retrieved [] second
      (returned ▸ List.mem_cons_of_mem _ (List.mem_cons_of_mem _ List.mem_cons_self))⟩

end Runs

end TechAtlas.Storage
