import TechAtlas.Library.Transition
import TechAtlas.Store.Worker

set_option autoImplicit false

/- The artifact store: one compressed file for each body, named by the checksum
of the body. A call to `store` is a sequence of file operations, and the calls of
several writers interleave between any two of them. -/
namespace TechAtlas.Storage

open Library
open TechAtlas.Store

abbrev Bytes := List UInt8

section Codecs

/-- The `zstd` crate at the level the store uses: `encode_all` and `decode_all`. -/
structure Zstd where
  encodeAll : Bytes → Option Bytes
  decodeAll : Bytes → Option Bytes
  decoded : ∀ contents compressed,
    encodeAll contents = some compressed → decodeAll compressed = some contents

/-- The `sha2` crate. -/
structure Sha256 where
  digest : Bytes → Bytes
  length : ∀ contents, (digest contents).length = 32

def hexDigit (n : Nat) : Char :=
  if n < 10 then Char.ofNat (48 + n) else Char.ofNat (87 + n)

def lowerHex (byte : UInt8) : Text :=
  [hexDigit (byte.toNat / 16), hexDigit (byte.toNat % 16)]

variable (sha : Sha256)

/-- `format!("{:x}", ...)` of the digest. -/
def checksum (contents : Bytes) : Text := (sha.digest contents).flatMap lowerHex

def locationFor (checksumSha256 : Text) : Text :=
  "sha256/".toList ++ checksumSha256.take 2 ++ '/' :: checksumSha256 ++ ".zst".toList

end Codecs

section Metadata

inductive RawArtifactMetadataError
  | invalidStorageLocation
  | invalidChecksum
  | invalidCompressedSize
  deriving DecidableEq, Repr

/-- An ASCII digit, or a lowercase letter that is a hexadecimal digit. -/
def isChecksumCharacter (c : Char) : Bool :=
  (48 ≤ c.toNat && c.toNat ≤ 57) || (97 ≤ c.toNat && c.toNat ≤ 102)

/-- `RawArtifactMetadata::response_body`. -/
def responseBody (storageLocation checksumSha256 : Text) (compression : RawArtifactCompression)
    (uncompressedSizeBytes compressedSizeBytes : Nat) (retentionExpiresAt : Time) :
    Except RawArtifactMetadataError RawArtifactMetadata :=
  let storageLocation := trim storageLocation
  if storageLocation.isEmpty || storageLocation.head? == some '/' ||
      (storageLocation.splitOn '/').any (· == "..".toList) then
    .error .invalidStorageLocation
  else
    let checksumSha256 := trim checksumSha256
    if utf8Length checksumSha256 != 64 || !checksumSha256.all isChecksumCharacter then
      .error .invalidChecksum
    else if compressedSizeBytes == 0 && uncompressedSizeBytes != 0 then
      .error .invalidCompressedSize
    else
      .ok
        { storageLocation := storageLocation
          checksumSha256 := checksumSha256
          compression := compression
          uncompressedSizeBytes := uncompressedSizeBytes
          compressedSizeBytes := compressedSizeBytes
          retentionExpiresAt := retentionExpiresAt }

inductive RawArtifactStoreError
  | invalidRoot
  | invalidLocation
  | notFound
  | compression
  | integrity
  | unsupportedCompression
  | size
  | unavailable
  | io
  deriving DecidableEq, Repr

/-- `u64::try_from` of a length. -/
def sizeOfBytes (bytes : Bytes) : Except RawArtifactStoreError Nat :=
  if bytes.length < 2 ^ 64 then .ok bytes.length else .error .size

end Metadata

section Retrieval

variable (zstd : Zstd) (sha : Sha256)

/-- `retrieve_blocking`, on what reading a location gives. -/
def retrieveBlocking (read : Text → Except RawArtifactStoreError Bytes)
    (artifact : RawArtifactMetadata) : Except RawArtifactStoreError Bytes := do
  require (artifact.compression == .zstd) .unsupportedCompression
  let expectedLocation := locationFor artifact.checksumSha256
  require (artifact.storageLocation == expectedLocation) .invalidLocation
  let compressed ← read expectedLocation
  let compressedSize ← sizeOfBytes compressed
  require (compressedSize == artifact.compressedSizeBytes) .integrity
  let contents ← orError (zstd.decodeAll compressed) .integrity
  let uncompressedSize ← sizeOfBytes contents
  require (uncompressedSize == artifact.uncompressedSizeBytes &&
    checksum sha contents == artifact.checksumSha256) .integrity
  .ok contents

end Retrieval

section Calls

/-- A path under the root: an artifact's, or the temporary file of a call, whose
name is a random identifier that no other call draws. -/
inductive StoredPath
  | location (location : Text)
  | temporary (call : Nat)
  deriving DecidableEq, Repr

abbrev Files := StoredPath → Option Bytes

def Files.read (files : Files) (location : Text) : Except RawArtifactStoreError Bytes :=
  orError (files (.location location)) .notFound

/-- The file operation that a call of `store_blocking` makes next. -/
inductive Phase
  | checking
  | preparing
  | creating
  | writing
  | syncing
  | moving
  | removing
  | rechecking
  | reading
  deriving DecidableEq, Repr

/-- A call of `store_blocking` that has compressed its contents. -/
structure StoreCall where
  contents : Bytes
  retentionExpiresAt : Time
  compressed : Bytes
  phase : Phase
  deriving DecidableEq, Repr

/-- How a file operation ends. A failed write has written some of its bytes. -/
inductive Outcome
  | ok
  | failed (written : Nat)
  deriving DecidableEq, Repr

inductive Progress
  | next (phase : Phase)
  | finished (result : Except RawArtifactStoreError RawArtifactMetadata)

variable (zstd : Zstd) (sha : Sha256)

def StoreCall.location (call : StoreCall) : Text := locationFor (checksum sha call.contents)

/-- The end of `store_blocking`, with what was read back. -/
def StoreCall.verify (call : StoreCall) (storedCompressed : Bytes) :
    Except RawArtifactStoreError RawArtifactMetadata := do
  let storedContents ← orError (zstd.decodeAll storedCompressed) .integrity
  require (storedContents == call.contents) .integrity
  let compressedSizeBytes ← sizeOfBytes storedCompressed
  (responseBody (call.location sha) (checksum sha call.contents) .zstd call.contents.length
    compressedSizeBytes call.retentionExpiresAt).mapError fun _ => .integrity

/-- What the next operation of the call does to the files. -/
def StoreCall.effect (call : StoreCall) (id : Nat) (files : Files) : Outcome → Files
  | .ok =>
      match call.phase with
      | .creating => Function.update files (.temporary id) (some [])
      | .writing => Function.update files (.temporary id) (some call.compressed)
      | .moving =>
          Function.update (Function.update files (.location (call.location sha))
            (files (.temporary id))) (.temporary id) none
      | .removing => Function.update files (.temporary id) none
      | _ => files
  | .failed written =>
      match call.phase with
      | .writing => Function.update files (.temporary id) (some (call.compressed.take written))
      | _ => files

/-- How the call goes on after the operation. `Path::exists` is false when it
fails, and a temporary file that cannot be removed is left. -/
def StoreCall.continue (call : StoreCall) (files : Files) : Outcome → Progress
  | .ok =>
      match call.phase with
      | .checking =>
          if (files (.location (call.location sha))).isSome then .next .reading
          else .next .preparing
      | .preparing => .next .creating
      | .creating => .next .writing
      | .writing => .next .syncing
      | .syncing => .next .moving
      | .moving => .next .reading
      | .removing => .next .rechecking
      | .rechecking =>
          if (files (.location (call.location sha))).isSome then .next .reading
          else .finished (.error .io)
      | .reading =>
          match files (.location (call.location sha)) with
          | some storedCompressed => .finished (call.verify zstd sha storedCompressed)
          | none => .finished (.error .notFound)
  | .failed _ =>
      match call.phase with
      | .checking => .next .preparing
      | .preparing => .finished (.error .io)
      | .creating | .writing | .syncing | .moving => .next .removing
      | .removing => .next .rechecking
      | .rechecking | .reading => .finished (.error .io)

end Calls

section Machine

/-- The files under the root, the calls in progress and what the finished ones
returned for which contents. -/
structure ArtifactStore where
  files : Files
  calls : Nat → Option StoreCall
  nextCall : Nat
  returned : List (Bytes × RawArtifactMetadata)

def ArtifactStore.initial : ArtifactStore where
  files := fun _ => none
  calls := fun _ => none
  nextCall := 0
  returned := []

/-- A call that stops may have carried out its next operation, all or in part. -/
inductive Action
  | store (contents : Bytes) (retentionExpiresAt : Time)
  | advance (id : Nat) (outcome : Outcome)
  | stop (id : Nat) (outcome : Outcome)
  deriving DecidableEq, Repr

variable (zstd : Zstd) (sha : Sha256) (s : ArtifactStore)

/-- `store_blocking`, up to its first file operation. -/
def StoreCall.begin (contents : Bytes) (retentionExpiresAt : Time) :
    Except RawArtifactStoreError StoreCall := do
  let compressed ← orError (zstd.encodeAll contents) .compression
  let _ ← sizeOfBytes contents
  .ok
    { contents := contents
      retentionExpiresAt := retentionExpiresAt
      compressed := compressed
      phase := .checking }

def ArtifactStore.store (contents : Bytes) (retentionExpiresAt : Time) : ArtifactStore :=
  match StoreCall.begin zstd contents retentionExpiresAt with
  | .ok call =>
      { s with
        calls := Function.update s.calls s.nextCall (some call)
        nextCall := s.nextCall + 1 }
  | .error _ => s

/-- One operation of a call, with what becomes of the call and what it returns. -/
def ArtifactStore.operate (id : Nat) (files : Files) (call : Option StoreCall)
    (returned : List (Bytes × RawArtifactMetadata)) : ArtifactStore :=
  { s with
    files := files
    calls := Function.update s.calls id call
    returned := s.returned ++ returned }

def ArtifactStore.advance (id : Nat) (outcome : Outcome) : ArtifactStore :=
  match s.calls id with
  | some call =>
      let files := call.effect sha id s.files outcome
      match call.continue zstd sha s.files outcome with
      | .next phase => s.operate id files (some { call with phase := phase }) []
      | .finished (.ok artifact) => s.operate id files none [(call.contents, artifact)]
      | .finished (.error _) => s.operate id files none []
  | none => s

def ArtifactStore.stop (id : Nat) (outcome : Outcome) : ArtifactStore :=
  match s.calls id with
  | some call => s.operate id (call.effect sha id s.files outcome) none []
  | none => s

def ArtifactStore.step : Action → ArtifactStore
  | .store contents retentionExpiresAt => s.store zstd contents retentionExpiresAt
  | .advance id outcome => s.advance zstd sha id outcome
  | .stop id outcome => s.stop sha id outcome

end Machine

end TechAtlas.Storage
