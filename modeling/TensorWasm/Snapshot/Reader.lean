import TensorWasm.Artifacts.Store
import TensorWasm.Snapshot.Writer

/-!
# The snapshot reader

`SnapshotReader::restore` finds out from the bytes which of three forms it has: an artifact envelope, an
inline frame with a trailer, or one without. `restore_from_artifact_store` reads the payload from a store.
The trace has an event for each verification, decompression and deserialisation.
-/

namespace TensorWasm.Snapshots

open Lib Artifacts

structure SnapshotReader (B : Libraries) where
  maxDecompressed : Nat
  hmacKey : Option Block
  hmacKeys : List Block
  ed25519VerifyingKey : Option B.ed25519.VerifyingKey
  requireSignature : Bool
  minSequenceNo : Option UInt64
  expectedNonce : Option (List.Vector UInt8 16)
  /-- In milliseconds. -/
  maxAge : Option Nat

def SnapshotReader.new (B : Libraries) : SnapshotReader B where
  maxDecompressed := maxDecompressedBytes
  hmacKey := none
  hmacKeys := []
  ed25519VerifyingKey := none
  requireSignature := false
  minSequenceNo := none
  expectedNonce := none
  maxAge := none

/-! ## Finding a trailer -/

/-- The magic stands where a trailer of the kind would begin. -/
def magicAt (bytes : Bytes) (kind : SignatureKind) : Bool :=
  kind.trailerLen ≤ bytes.length &&
    slice bytes (bytes.length - kind.trailerLen) (bytes.length - kind.trailerLen + v3TrailerMagicLen) =
      v3TrailerMagic

/-- The byte behind the magic. -/
def kindByteAt (bytes : Bytes) (kind : SignatureKind) : Option UInt8 :=
  bytes[bytes.length - kind.trailerLen + v3TrailerMagicLen]?

/-- The kind byte agrees with the length it was probed at. -/
def selfConsistent (bytes : Bytes) (kind : SignatureKind) : Bool :=
  magicAt bytes kind && kindByteAt bytes kind == some kind.toByte

def detectV3Trailer (bytes : Bytes) : Option (SignatureKind × Nat) :=
  if selfConsistent bytes .ed25519 then
    some (.ed25519, bytes.length - SignatureKind.ed25519.trailerLen)
  else if selfConsistent bytes .hmacSha256 then
    some (.hmacSha256, bytes.length - SignatureKind.hmacSha256.trailerLen)
  -- with the magic alone, the verification is to find out what is wrong
  else if magicAt bytes .hmacSha256 then
    some (.hmacSha256, bytes.length - SignatureKind.hmacSha256.trailerLen)
  else none

/-! ## Checks -/

namespace SnapshotReader

variable {B : Libraries} (F : Features) (R : SnapshotReader B) (clock : Clock)

/-- All HMAC keys, the rotation set first. -/
def candidateKeys : List Block := R.hmacKeys ++ R.hmacKey.toList

/-- The message and the signature of a trailer verify under the reader's key of that kind. -/
def checkSignature (kind : SignatureKind) (message sigBytes : Bytes) : Traced Event TensorWasmError Unit :=
  match kind with
  | .ed25519 =>
    match R.ed25519VerifyingKey with
    | none => .fail (.serialization
        "snapshot is Ed25519-signed (v3) but reader has no Ed25519 verifying key")
    | some key =>
      if h : sigBytes.length = 64 then
        if B.ed25519.verifyStrict key message ⟨sigBytes, h⟩ then
          .perform (.verified message sigBytes) (.ok ())
        else .fail (.serialization "snapshot Ed25519 signature mismatch")
      else .fail (.serialization "snapshot Ed25519 signature malformed")
  | .hmacSha256 =>
    if R.candidateKeys.isEmpty then
      .fail (.serialization "snapshot is signed (v3) but reader has no HMAC key")
    else if R.candidateKeys.any fun key => (B.artifacts.hmacSha256 key message).toList = sigBytes then
      .perform (.verified message sigBytes) (.ok ())
    else .fail (.serialization "snapshot HMAC mismatch")

/-- `verify_v3_trailer`, which reads the trailer again. -/
def verifyV3Trailer (bytes : Bytes) (prefixLen : Nat) (kind : SignatureKind) :
    Traced Event TensorWasmError Unit :=
  if bytes.length < prefixLen then .fail (.serialization "snapshot v3 trailer missing")
  else
    let trailer := bytes.drop prefixLen
    if trailer.length ≠ kind.trailerLen then
      .fail (.serialization ("snapshot v3 trailer length mismatch: expected " ++
        toString kind.trailerLen ++ " bytes, got " ++ toString trailer.length))
    else if trailer.take v3TrailerMagicLen ≠ v3TrailerMagic then
      .fail (.serialization "snapshot v3 trailer magic mismatch")
    else
      let kindByte := trailer.getD v3TrailerMagicLen 0
      let sigBytes := trailer.drop (v3TrailerMagicLen + 1)
      match SignatureKind.fromByte kindByte with
      | none => .fail (.serialization ("unknown signature_kind: " ++ toString kindByte.toNat))
      | some parsedKind =>
        if parsedKind ≠ kind then
          .fail (.serialization "snapshot v3 trailer kind inconsistent with detected length")
        else R.checkSignature kind (bytes.take prefixLen ++ v3TrailerMagic ++ [kindByte]) sigBytes

def checkFreshness (createdUnixMs : UInt64) : Except TensorWasmError Unit :=
  match R.maxAge with
  | none => .ok ()
  | some maxAge =>
    match clock with
    | .error _ => .ok ()
    | .ok nowUnixMs =>
      if 2 ^ 64 ≤ nowUnixMs then .ok ()
      else
        let ageMs := nowUnixMs - createdUnixMs.toNat
        let maxAgeMs := if maxAge < 2 ^ 64 then maxAge else 2 ^ 64 - 1
        if maxAgeMs < ageMs then .error (.snapshotTooOld createdUnixMs.toNat nowUnixMs maxAgeMs)
        else .ok ()

def checkSequenceNo (metadata : SnapshotMetadata) : Except TensorWasmError Unit :=
  match R.minSequenceNo with
  | none => .ok ()
  | some floor =>
    if metadata.sequenceNo < floor then
      .error (.serialization ("snapshot sequence_no " ++ toString metadata.sequenceNo.toNat ++
        " below floor " ++ toString floor.toNat ++ " (replay/rollback rejected)"))
    else .ok ()

def checkNonce (metadata : SnapshotMetadata) : Except TensorWasmError Unit :=
  match R.expectedNonce with
  | none => .ok ()
  | some expected =>
    match metadata.nonce with
    | some actual =>
      if actual = expected then .ok ()
      else .error (.serialization "snapshot nonce mismatch (replay rejected)")
    | none =>
      .error (.serialization "snapshot nonce missing but a nonce was required (replay rejected)")

def checkReplay (metadata : SnapshotMetadata) : Except TensorWasmError Unit := do
  R.checkSequenceNo metadata
  R.checkNonce metadata

def checkCrc32 (B : Libraries) (s : Snapshot) : Except TensorWasmError Unit :=
  let expected := payloadCrc32 B s.wasmMemory s.gpuMemory s.registers
  if s.crc32 ≠ expected then
    .error (.serialization ("snapshot crc32 mismatch: expected " ++ hexUpper10 expected.toNat ++
      ", got " ++ hexUpper10 s.crc32.toNat))
  else .ok ()

def checkTotal (s : Snapshot) : Except TensorWasmError Unit :=
  let actualTotal := s.wasmMemory.length + s.gpuMemory.length + s.registers.length
  if 2 ^ 64 ≤ actualTotal then .error (.serialization "snapshot blob length sum overflowed usize")
  else if actualTotal ≠ s.metadata.totalUncompressedBytes.toNat then
    .error (.serialization ("snapshot metadata.total_uncompressed_bytes mismatch: expected " ++
      toString actualTotal ++ " (wasm_memory=" ++ toString s.wasmMemory.length ++ " + gpu_memory=" ++
      toString s.gpuMemory.length ++ " + registers=" ++ toString s.registers.length ++ "), got " ++
      toString s.metadata.totalUncompressedBytes.toNat))
  else .ok ()

/-- The checks that all paths make once the version is settled. -/
def checkSnapshot (s : Snapshot) : Except TensorWasmError Unit := do
  checkBlobSizes s.wasmMemory s.gpuMemory s.registers
  checkCrc32 B s
  checkTotal s
  R.checkFreshness clock s.metadata.createdUnixMs
  R.checkReplay s.metadata

def checkMagic (s : Snapshot) : Except TensorWasmError Unit :=
  if s.magic ≠ snapshotMagic then
    .error (.serialization ("snapshot magic mismatch: expected " ++ hexUpper snapshotMagic.toNat ++
      ", got " ++ hexUpper s.magic.toNat))
  else .ok ()

/-! ## The artifact paths -/

/-- The version inside an artifact; only the text of the refusal differs between the paths. -/
def checkArtifactVersion (what why : String) (s : Snapshot) : Except TensorWasmError Unit :=
  if s.version ≠ snapshotVersionV2 then
    .error (.serialization ("snapshot " ++ what ++ " inner version mismatch: expected " ++
      toString snapshotVersionV2.toNat ++ " (" ++ why ++ "), got " ++ toString s.version.toNat))
  else .ok ()

/-- What both paths do with a payload they have authenticated. -/
def restorePayload (what why : String) (payload : Bytes) : Traced Event TensorWasmError Snapshot := do
  let snapshot ← .perform (.deserialise payload) (decodeSnapshot payload)
  .quiet (checkMagic snapshot)
  .quiet (checkArtifactVersion what why snapshot)
  .quiet (R.checkSnapshot clock snapshot)
  return snapshot

/-- Try the keys in turn; only a wrong tag lets the next key have a go. -/
def decodeWithKeys (bytes : Bytes) : List Block → Traced Event TensorWasmError Bytes
  | [] => .fail (.serialization "snapshot artifact envelope: BadHmac")
  | key :: keys =>
    (decodeEnvelopeFromBytesWithCap B.artifacts bytes key R.maxDecompressed).handle fun
      | .badHmac => decodeWithKeys bytes keys
      | .badMagic => .fail (.serialization
          "snapshot artifact envelope: minimum-length / magic check failed")
      | other => .fail (.serialization ("snapshot artifact envelope: " ++ displayArtifactError other))

def tryRestoreArtifactEnvelope (bytes : Bytes) : Traced Event TensorWasmError (Option Snapshot) :=
  if bytes.take artifactMagic.length ≠ artifactMagic then return none
  else if R.candidateKeys.isEmpty then
    .fail (.serialization "snapshot is artifact-envelope (v4) but reader has no HMAC key")
  else do
    let payload ← R.decodeWithKeys bytes R.candidateKeys
    let snapshot ← R.restorePayload clock "artifact envelope"
      "inner v3 is not accepted on the v4 path — no inner trailer is verified there" payload
    return some snapshot

def restoreFromArtifactStore (D : DiskArtifactStore) (dir : Directory) (hash : ContentHash) :
    Traced Event TensorWasmError Snapshot := do
  let payload ← (D.get B.artifacts dir hash).mapError fun e =>
    .serialization ("artifact store get: " ++ displayArtifactError e)
  R.restorePayload clock "artifact-store"
    "inner v3 is not accepted on the artifact path — no inner trailer is verified there" payload

/-! ## The inline path -/

/-- The version inside an inline frame must agree with whether there is a trailer, and the frame must
end where the trailer begins. -/
def checkVersion (isV3 : Bool) (version : UInt32) (zstdConsumed prefixLen : Nat) : Except TensorWasmError Unit :=
  if isV3 then
    if version = snapshotVersionV3 then
      if zstdConsumed ≠ prefixLen then
        .error (.serialization ("snapshot v3 has unexpected bytes between zstd frame and trailer: " ++
          toString (prefixLen - zstdConsumed) ++ " byte(s) past zstd frame"))
      else .ok ()
    else .error (.serialization ("snapshot v3 inner version mismatch: expected " ++
      toString snapshotVersionV3.toNat ++ ", got " ++ toString version.toNat))
  else if version = snapshotVersionV2 then
    if zstdConsumed ≠ prefixLen then
      .error (.serialization ("snapshot v2 has unexpected trailing bytes: " ++
        toString (prefixLen - zstdConsumed) ++ " byte(s) past zstd frame"))
    else .ok ()
  else if version = snapshotVersionV3 then
    .error (.serialization (if F.signedSnapshots then "snapshot v3 trailer missing"
      else "snapshot is signed (v3) but the `signed-snapshots` feature is not compiled in"))
  else .error (.serialization ("snapshot version mismatch: expected " ++
    toString snapshotVersionV2.toNat ++ " or " ++ toString snapshotVersionV3.toNat ++ ", got " ++
    toString version.toNat))

/-- Detect a trailer and verify it. The result is whether there is one and where the frame ends. -/
def authenticate (bytes : Bytes) : Traced Event TensorWasmError (Bool × Nat) :=
  match if F.signedSnapshots then detectV3Trailer bytes else none with
  | some (kind, prefixLen) => do
    R.verifyV3Trailer bytes prefixLen kind
    return (true, prefixLen)
  | none =>
    if R.requireSignature then
      .fail (.serialization "snapshot is unsigned (v2) but signature is required")
    else return (false, bytes.length)

/-- Decode a frame that has been authenticated or need not be. -/
def restoreFrame (isV3 : Bool) (authPrefix : Bytes) : Traced Event TensorWasmError Snapshot := do
  let run ← .perform (.decompress authPrefix)
    ((B.artifacts.zstd.decodeFrame authPrefix).mapError fun e => .serialization ("zstd init: " ++ e))
  let decompressed ← .quiet ((run.readToEnd (R.maxDecompressed + 1)).mapError fun e =>
    .serialization ("zstd decode: " ++ e))
  .quiet (if R.maxDecompressed < decompressed.length then
      .error (.serialization ("snapshot decompressed payload too large: > " ++
        toString R.maxDecompressed ++ " bytes exceeds cap"))
    else .ok ())
  let snapshot ← .perform (.deserialise decompressed) (decodeSnapshot decompressed)
  .quiet (checkMagic snapshot)
  .quiet (checkVersion F isV3 snapshot.version run.consumed authPrefix.length)
  .quiet (R.checkSnapshot clock snapshot)
  return snapshot

/-- The artifact path, where it is compiled in. -/
def restoreEarly (bytes : Bytes) : Traced Event TensorWasmError (Option Snapshot) :=
  if F.envelopes then R.tryRestoreArtifactEnvelope clock bytes else pure none

def restore (bytes : Bytes) : Traced Event TensorWasmError Snapshot :=
  if maxInputBytes < bytes.length then
    .fail (.serialization ("snapshot input too large: " ++ toString bytes.length ++
      " bytes exceeds cap of " ++ toString maxInputBytes ++ " bytes"))
  else do
    match ← R.restoreEarly F clock bytes with
    | some snapshot => return snapshot
    | none =>
      let (isV3, prefixLen) ← R.authenticate F bytes
      R.restoreFrame F clock isV3 (bytes.take prefixLen)

end SnapshotReader

end TensorWasm.Snapshots
