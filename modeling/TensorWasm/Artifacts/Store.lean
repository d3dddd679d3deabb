import Mathlib.Data.List.AList
import TensorWasm.Artifacts.Envelope

/-!
# The artifact stores

`DiskArtifactStore` and `InMemoryArtifactStore`. A directory is a map from file names to contents; a
store is a key provider over a directory, and rotating keys is opening the same directory under another
provider. Faults of the file system are left out, and with them the fsync policy.
-/

namespace TensorWasm.Artifacts

open Lib

abbrev FileName := List Char

abbrev Directory := AList fun _ : FileName => Bytes

variable (P : Primitives)

/-! ## Names of files -/

def hexVal (c : Char) : Option Nat :=
  if '0' ≤ c ∧ c ≤ '9' then some (c.toNat - '0'.toNat)
  else if 'a' ≤ c ∧ c ≤ 'f' then some (c.toNat - 'a'.toNat + 10)
  else none

/-- The bytes of pairs of digits. -/
def hexPairs : List Char → Option Bytes
  | [] => some []
  | [_] => none
  | hi :: lo :: rest => do
    let hi ← hexVal hi
    let lo ← hexVal lo
    let bytes ← hexPairs rest
    return UInt8.ofNat (hi * 16 + lo) :: bytes

def parseHashHex (hashHex : List Char) : Option ContentHash :=
  if hashHex.length ≠ 64 then none
  else do
    let bytes ← hexPairs hashHex
    if h : bytes.length = 32 then some ⟨bytes, h⟩ else none

def keyFingerprintHex (key : Block) : List Char := hexInto ((P.blake3 key.toList).toList.take 8)

/-- Refuse a hash whose text would not be a safe part of a path. -/
def validatedHashSegment (hash : ContentHash) : Except ArtifactError (List Char) :=
  let hashHex := hexInto hash.toList
  if hashHex.length = 64 ∧ hashHex.all fun c => (hexVal c).isSome then .ok hashHex
  else .error .badMagic

def pathForKey (hash : ContentHash) (keyFpHex : List Char) : Except ArtifactError FileName := do
  let hashHex ← validatedHashSegment hash
  return hashHex ++ '.' :: (keyFpHex ++ ".bin".toList)

def metaPathForKey (hash : ContentHash) (keyFpHex : List Char) : Except ArtifactError FileName := do
  let hashHex ← validatedHashSegment hash
  return hashHex ++ '.' :: (keyFpHex ++ ".meta.json".toList)

def stripSuffix (suffix name : List Char) : Option (List Char) :=
  if suffix.isSuffixOf name then some (name.take (name.length - suffix.length)) else none

/-- What stands before and after the last dot. -/
def splitAtLastDot (stem : List Char) : Option (List Char × List Char) :=
  let fp := stem.rtakeWhile (· ≠ '.')
  if fp.length = stem.length then none else some (stem.take (stem.length - fp.length - 1), fp)

def parseBlobFilename (name : FileName) : Option (ContentHash × List Char) := do
  let stem ← stripSuffix ".bin".toList name
  let (hashHex, fp) ← splitAtLastDot stem
  let hash ← parseHashHex hashHex
  return (hash, fp)

/-! ## Keys -/

/-- The key `put` signs with and the keys a read may try, which include it. -/
structure KeyProvider where
  activeKey : Block
  readKeys : List Block
  active_mem : activeKey ∈ readKeys

def SingleKeyProvider (key : Block) : KeyProvider := ⟨key, [key], List.mem_singleton_self key⟩

def RotatingKeyProvider (active : Block) (alsoAccept : List Block) : KeyProvider :=
  ⟨active, active :: alsoAccept, List.mem_cons_self⟩

/-! ## The disk store -/

structure DiskArtifactStore where
  keyProvider : KeyProvider
  zstdLevel : Int

namespace DiskArtifactStore

variable (D : DiskArtifactStore) (dir : Directory)

/-- The name a blob is published under. -/
def pathFor (hash : ContentHash) : Except ArtifactError FileName :=
  pathForKey hash (keyFingerprintHex P D.keyProvider.activeKey)

/-- Seal a compressed body and rename it into place. -/
def publish (hash : ContentHash) (pieces : List Bytes) : Except ArtifactError ContentHash × Directory :=
  match D.pathFor P hash with
  | .error e => (.error e, dir)
  | .ok finalPath =>
    match P.zstd.encode D.zstdLevel pieces with
    | .error _ => (.error .io, dir)
    | .ok body => (.ok hash, dir.insert finalPath (sealEnvelope P D.keyProvider.activeKey hash body))

def put (payload : Bytes) : Except ArtifactError ContentHash × Directory :=
  if maxPayloadLen < payload.length then (.error (.tooLarge payload.length maxPayloadLen), dir)
  else D.publish P dir (P.blake3 payload) [payload]

/-- The first pass of `put_from`: the pieces a source delivers until an empty one, under the cap. -/
def ingest : List Bytes → Nat → Except ArtifactError (List Bytes)
  | [], _ => .ok []
  | piece :: rest, uncompressedLen =>
    if piece.isEmpty then .ok []
    else
      let uncompressedLen := min (uncompressedLen + piece.length) (2 ^ 64 - 1)
      if maxPayloadLen < uncompressedLen then .error (.tooLarge uncompressedLen maxPayloadLen)
      else do
        let pieces ← ingest rest uncompressedLen
        return piece :: pieces

/-- `put_from`; a fault of the encoder is reported once the source has been read. -/
def putFrom (src : List Bytes) : Except ArtifactError ContentHash × Directory :=
  match ingest src 0 with
  | .error e => (.error e, dir)
  | .ok pieces => D.publish P dir (P.blake3 pieces.flatten) pieces

/-- The first of the keys under which there is a file for the hash. -/
def resolveFrom (hash : ContentHash) : List Block → Except ArtifactError (Option (FileName × Block))
  | [] => .ok none
  | key :: keys => do
    let path ← pathForKey hash (keyFingerprintHex P key)
    if path ∈ dir then return some (path, key) else resolveFrom hash keys

def resolveReadKey (hash : ContentHash) : Except ArtifactError (Option (FileName × Block)) :=
  resolveFrom P dir hash D.keyProvider.readKeys

/-- The hash of a decoded payload must be the requested one. -/
def checkRequested (requested : ContentHash) (payload : Bytes) : Except ArtifactError Unit :=
  if P.blake3 payload ≠ requested then
    .error (.hashMismatch requested.toList (P.blake3 payload).toList)
  else .ok ()

/-- How much of the body has gone through the MAC when the decoder is dropped. -/
def pulledFrom (limit : Nat) (body : Bytes) : Nat :=
  match P.zstd.decodeFrames body with
  | .error _ => 0
  | .ok run => run.pulled limit

/-- `get` on the contents of the file. A fault of the decoder is kept until the tag has been compared; the
tag is over the bytes the decoder has pulled and over those that are then drained. -/
def getBlob (bytes : Bytes) (key : Block) (hash : ContentHash) : Traced Event ArtifactError Bytes := do
  let hashOnDisk ← .quiet (checkHeader bytes)
  let header := bytes.take artifactHeaderLen
  let prefixEnd := bytes.length - artifactHmacLen
  let body := slice bytes artifactHeaderLen prefixEnd
  let decodeResult ← .perform (.decompress body) (.ok (decodeBody P (maxDecompressedLen + 1) body))
  let pulled := pulledFrom P (maxDecompressedLen + 1) body
  checkTag P key (header ++ body.take pulled ++ body.drop pulled) (bytes.drop prefixEnd)
  let payload ← .quiet decodeResult
  .quiet (checkPayload P maxDecompressedLen hashOnDisk payload)
  .quiet (checkRequested P hash payload)
  return payload

structure VerifiedBlob where
  hashOnDisk : Bytes
  bodyLen : Nat

/-- The first pass of `get_to`. -/
def verifyBlob (bytes : Bytes) (key : Block) : Traced Event ArtifactError VerifiedBlob := do
  let hashOnDisk ← .quiet (checkHeader bytes)
  let prefixEnd := bytes.length - artifactHmacLen
  let body := slice bytes artifactHeaderLen prefixEnd
  checkTag P key (bytes.take artifactHeaderLen ++ body) (bytes.drop prefixEnd)
  return ⟨hashOnDisk, prefixEnd - artifactHeaderLen⟩

/-- How the caller's writer ends: it takes everything, it reports an error, or it stops taking bytes
without reporting one. -/
inductive WriterEnd
  | done
  | failed
  | stalled (e : String)
  deriving DecidableEq

/-- Only an error the writer itself reports sets `downstream_failed`, so that one which stalls is taken
for a fault of the decoder. -/
def WriterEnd.toResult : WriterEnd → Except ArtifactError Unit
  | .done => .ok ()
  | .failed => .error .io
  | .stalled e => .error (.decompression e)

/-- The second pass of `get_to`, over the same bytes; what was written before a fault of the decoder stays
written. -/
def decodeToWriter (bytes : Bytes) (verified : VerifiedBlob) (requested : ContentHash)
    (out : Bytes → WriterEnd) : Traced Event ArtifactError Nat := do
  let body := slice bytes artifactHeaderLen (artifactHeaderLen + verified.bodyLen)
  let run ← .perform (.decompress body)
    (match P.zstd.decodeFrames body with
    | .error e => .error (.decompression e)
    | .ok run => .ok run)
  let copied := run.output.take (maxDecompressedLen + 1)
  .perform (.write copied) (out copied).toResult
  let payload ← .quiet ((run.readToEnd (maxDecompressedLen + 1)).mapError .decompression)
  .quiet (checkPayload P maxDecompressedLen verified.hashOnDisk payload)
  .quiet (checkRequested P requested payload)
  return payload.length

/-- `get_to` on the contents of the file. -/
def getBlobTo (bytes : Bytes) (key : Block) (hash : ContentHash) (out : Bytes → WriterEnd) :
    Traced Event ArtifactError Nat := do
  let verified ← verifyBlob P bytes key
  decodeToWriter P bytes verified hash out

/-- The file a read opens and the key it belongs to. -/
def openBlob (hash : ContentHash) : Except ArtifactError (Bytes × Block) := do
  match ← D.resolveReadKey P dir hash with
  | none => .error (.notFound hash)
  | some (path, key) =>
    match dir.lookup path with
    | none => .error (.notFound hash)
    | some bytes => return (bytes, key)

def get (hash : ContentHash) : Traced Event ArtifactError Bytes := do
  let (bytes, key) ← .quiet (D.openBlob P dir hash)
  getBlob P bytes key hash

def getTo (hash : ContentHash) (out : Bytes → WriterEnd) : Traced Event ArtifactError Nat := do
  let (bytes, key) ← .quiet (D.openBlob P dir hash)
  getBlobTo P bytes key hash out

/-- The hash a directory entry stands for, if it is a blob of an accepted key. -/
def listed (accepted : List (List Char)) (name : FileName) (contents : Bytes) : Option ContentHash :=
  match parseBlobFilename name with
  | none => none
  | some (hash, fp) =>
    if fp ∈ accepted ∧ artifactHeaderLen + artifactHmacLen ≤ contents.length then some hash else none

def list : List ContentHash :=
  let accepted := D.keyProvider.readKeys.map (keyFingerprintHex P)
  (dir.entries.filterMap fun entry => listed accepted entry.1 entry.2).dedup

def contains (hash : ContentHash) : Except ArtifactError Bool := do
  let found ← D.resolveReadKey P dir hash
  return found.isSome

/-- Unlink the blob and the sidecar next to it. -/
def remove (hash : ContentHash) : Except ArtifactError Bool × Directory :=
  match D.resolveReadKey P dir hash with
  | .error e => (.error e, dir)
  | .ok none => (.ok false, dir)
  | .ok (some (path, key)) =>
    match metaPathForKey hash (keyFingerprintHex P key) with
    | .error _ => (.ok true, dir.erase path)
    | .ok metaPath => (.ok true, (dir.erase path).erase metaPath)

end DiskArtifactStore

/-! ## The in-memory store -/

abbrev InMemoryArtifactStore := AList fun _ : ContentHash => Bytes

namespace InMemoryArtifactStore

variable (M : InMemoryArtifactStore)

def put (payload : Bytes) : Except ArtifactError ContentHash × InMemoryArtifactStore :=
  (.ok (P.blake3 payload), AList.insert (P.blake3 payload) payload M)

def get (hash : ContentHash) : Except ArtifactError Bytes :=
  match AList.lookup hash M with
  | some payload => .ok payload
  | none => .error (.notFound hash)

def list : List ContentHash := AList.keys M

def contains (hash : ContentHash) : Bool := decide (hash ∈ M)

def remove (hash : ContentHash) : Bool × InMemoryArtifactStore :=
  (decide (hash ∈ M), AList.erase hash M)

end InMemoryArtifactStore

end TensorWasm.Artifacts
