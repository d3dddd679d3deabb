import TensorWasm.Snapshot.Format

/-!
# The snapshot writer

`SnapshotWriter::capture`: the artifact envelope if there is an HMAC key and nothing stands against it,
and otherwise the inline form, a zstd frame with a signature trailer if there is a key.
-/

namespace TensorWasm.Snapshots

open Lib Artifacts

structure InstanceState where
  tenantId : UInt64
  instanceId : BitVec 128
  wasmMemory : Bytes
  gpuMemory : Bytes
  registers : Bytes

structure SnapshotWriter (B : Libraries) where
  zstdLevel : Int
  hmacKey : Option Block
  ed25519Key : Option B.ed25519.SigningKey
  sequenceNo : UInt64
  nonce : Option (List.Vector UInt8 16)
  useLegacyEnvelope : Bool
  fixedCreatedUnixMs : Option UInt64

/-- `SystemTime::now().duration_since(UNIX_EPOCH)` in milliseconds. -/
abbrev Clock := Except String Nat

variable {B : Libraries} (F : Features) (W : SnapshotWriter B) (clock : Clock)

def SnapshotWriter.new (B : Libraries) : SnapshotWriter B where
  zstdLevel := defaultZstdLevel
  hmacKey := none
  ed25519Key := none
  sequenceNo := 0
  nonce := none
  useLegacyEnvelope := false
  fixedCreatedUnixMs := none

namespace SnapshotWriter

def createdUnixMs : Except TensorWasmError UInt64 :=
  match W.fixedCreatedUnixMs with
  | some ms => .ok ms
  | none =>
    match clock with
    | .error e => .error (.serialization
        ("snapshot created_unix_ms: SystemTime::now() before UNIX_EPOCH: " ++ e))
    | .ok ms =>
      if ms < 2 ^ 64 then .ok (UInt64.ofNat ms)
      else .error (.serialization "snapshot created_unix_ms: milliseconds since epoch overflows u64")

def buildMetadata (state : InstanceState) : Except TensorWasmError (SnapshotMetadata × UInt32) := do
  checkBlobSizes state.wasmMemory state.gpuMemory state.registers
  let createdUnixMs ← W.createdUnixMs clock
  return ({ tenantId := state.tenantId
            instanceId := state.instanceId
            createdUnixMs
            totalUncompressedBytes := UInt64.ofNat
              (state.wasmMemory.length + state.gpuMemory.length + state.registers.length)
            sequenceNo := W.sequenceNo
            nonce := W.nonce },
    payloadCrc32 B state.wasmMemory state.gpuMemory state.registers)

/-- The view of a state that is written, under a version. -/
def snapshotRef (version : UInt32) (state : InstanceState) : Except TensorWasmError Snapshot := do
  let (metadata, crc32) ← W.buildMetadata clock state
  return { magic := snapshotMagic
           version
           wasmMemory := state.wasmMemory
           gpuMemory := state.gpuMemory
           registers := state.registers
           metadata
           crc32 }

/-- The keys as they are compiled in. -/
def signingKey? : Option B.ed25519.SigningKey := if F.signedSnapshots then W.ed25519Key else none

def hmacKey? : Option Block := if F.signedSnapshots then W.hmacKey else none

/-- What a signature is over. -/
def signedMessage (compressed : Bytes) (kind : SignatureKind) : Bytes :=
  compressed ++ v3TrailerMagic ++ [kind.toByte]

/-- The frame with its trailer; Ed25519 goes before HMAC. -/
def appendTrailer (compressed : Bytes) : Bytes :=
  match W.signingKey? F with
  | some key =>
    signedMessage compressed .ed25519 ++ (B.ed25519.sign key (signedMessage compressed .ed25519)).toList
  | none =>
    match W.hmacKey? F with
    | some key =>
      signedMessage compressed .hmacSha256 ++
        (B.artifacts.hmacSha256 key (signedMessage compressed .hmacSha256)).toList
    | none => compressed

def captureLegacy (state : InstanceState) : Except TensorWasmError Bytes := do
  let onWireVersion :=
    if (W.signingKey? F).isSome || (W.hmacKey? F).isSome then snapshotVersionV3 else snapshotVersionV2
  let snapshot ← W.snapshotRef clock onWireVersion state
  match B.artifacts.zstd.encode W.zstdLevel snapshot.pieces with
  | .error (.init e) => .error (.serialization ("zstd init: " ++ e))
  | .error (.write e) => .error (.serialization ("bincode encode: " ++ e))
  | .error (.finish e) => .error (.serialization ("zstd finish: " ++ e))
  | .ok compressed => return W.appendTrailer F compressed

def captureViaArtifactEnvelope (state : InstanceState) (hmacKey : Block) : Except TensorWasmError Bytes := do
  let snapshot ← W.snapshotRef clock snapshotVersionV2 state
  match encodeEnvelopeToWriter B.artifacts snapshot.payload hmacKey with
  | .error e => .error (.serialization ("artifact envelope encode: " ++ displayArtifactError e))
  | .ok envelope => return envelope

/-- The key the artifact envelope is sealed with, if `capture` takes that path. -/
def envelopeKey : Option Block :=
  if F.envelopes && !W.useLegacyEnvelope && W.ed25519Key.isNone then W.hmacKey
  else none

def capture (state : InstanceState) : Except TensorWasmError Bytes :=
  match W.envelopeKey F with
  | some key => W.captureViaArtifactEnvelope clock state key
  | none => W.captureLegacy F clock state

end SnapshotWriter

end TensorWasm.Snapshots
