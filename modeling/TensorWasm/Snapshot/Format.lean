import TensorWasm.Lib.LimitedReader
import TensorWasm.Artifacts.Envelope

/-!
# Snapshots on the wire

The types, constants and errors of `tensor-wasm-snapshot`, and the bincode encoding of a snapshot: fixed
width little-endian numbers, byte strings after their length, an option after a tag byte. Ed25519 and
CRC32 are parameters next to those of the artifact envelope.
-/

namespace TensorWasm.Snapshots

open Lib Artifacts
open LimitedReader (counted number)

/-! ## The libraries and the build -/

structure Ed25519 where
  SigningKey : Type
  VerifyingKey : Type
  verifyingKey : SigningKey → VerifyingKey
  sign : SigningKey → Bytes → List.Vector UInt8 64
  verifyStrict : VerifyingKey → Bytes → List.Vector UInt8 64 → Bool

/-- What is signed verifies. -/
def Ed25519.Correct (E : Ed25519) : Prop :=
  ∀ key message, E.verifyStrict (E.verifyingKey key) message (E.sign key message) = true

structure Libraries where
  artifacts : Primitives
  ed25519 : Ed25519
  crc32 : Bytes → UInt32

/-- The cargo features that change what is compiled. -/
structure Features where
  signedSnapshots : Bool
  artifactBacking : Bool

/-- `all(feature = "artifact-backing", feature = "signed-snapshots")`. -/
def Features.envelopes (F : Features) : Bool := F.artifactBacking && F.signedSnapshots

/-! ## Constants -/

def snapshotMagic : UInt32 := 0xBA115407
def snapshotVersionV2 : UInt32 := 2
def snapshotVersionV3 : UInt32 := 3
def v3TrailerMagic : Bytes := utf8Bytes "S3T1"
def v3TrailerMagicLen : Nat := 4

inductive SignatureKind
  | hmacSha256
  | ed25519
  deriving DecidableEq

namespace SignatureKind

def toByte : SignatureKind → UInt8
  | hmacSha256 => 1
  | ed25519 => 2

def fromByte (byte : UInt8) : Option SignatureKind :=
  if byte = 1 then some hmacSha256 else if byte = 2 then some ed25519 else none

def signatureLen : SignatureKind → Nat
  | hmacSha256 => 32
  | ed25519 => 64

def trailerLen (kind : SignatureKind) : Nat := v3TrailerMagicLen + 1 + kind.signatureLen

end SignatureKind

def maxWasmMemoryBytes : Nat := 1024 * 1024 * 1024
def maxGpuMemoryBytes : Nat := 4 * 1024 * 1024 * 1024
def maxRegistersBytes : Nat := 1024 * 1024
def maxTotalPayloadBytes : Nat := maxWasmMemoryBytes + maxGpuMemoryBytes + maxRegistersBytes + 65536
def maxInputBytes : Nat := 1024 * 1024 * 1024
def maxDecompressedBytes : Nat := 256 * 1024 * 1024

/-! ## Errors -/

inductive TensorWasmError
  | serialization (message : String)
  /-- A serialization error whose text is the one of the bincode decoder. -/
  | bincodeDecode (e : ReadError)
  | snapshotTooOld (createdUnixMs nowUnixMs maxAgeMs : Nat)
  deriving DecidableEq

/-- `format!("{:#X}")`. -/
def hexUpper (n : Nat) : String := "0x" ++ (String.ofList (Nat.toDigits 16 n)).toUpper

/-- `format!("{:#010X}")`. -/
def hexUpper10 (n : Nat) : String :=
  "0x" ++ (String.ofList ((Nat.toDigits 16 n).leftpad 8 '0')).toUpper

def hashText (hash : Bytes) : String := String.ofList (hexInto hash)

/-- `Display` of an artifact error. -/
def displayArtifactError : ArtifactError → String
  | .notFound hash => "artifact not found: " ++ hashText hash.toList
  | .badMagic => "magic mismatch"
  | .badVersion version => "unsupported version: " ++ toString version
  | .badHmac => "HMAC verification failed"
  | .hashMismatch expected actual =>
    "content hash mismatch (expected " ++ hashText expected ++ ", got " ++ hashText actual ++ ")"
  | .decompression e => "zstd decompression failed: " ++ e
  | .tooLarge actual limit =>
    "artifact too large: " ++ toString actual ++ " bytes exceeds cap of " ++ toString limit ++ " bytes"
  | .io => "I/O error"

/-! ## Snapshots -/

structure SnapshotMetadata where
  tenantId : UInt64
  instanceId : BitVec 128
  createdUnixMs : UInt64
  totalUncompressedBytes : UInt64
  sequenceNo : UInt64
  nonce : Option (List.Vector UInt8 16)
  deriving DecidableEq

structure Snapshot where
  magic : UInt32
  version : UInt32
  wasmMemory : Bytes
  gpuMemory : Bytes
  registers : Bytes
  metadata : SnapshotMetadata
  crc32 : UInt32
  deriving DecidableEq

def payloadCrc32 (B : Libraries) (wasmMemory gpuMemory registers : Bytes) : UInt32 :=
  B.crc32 (wasmMemory ++ gpuMemory ++ registers)

def checkBlobSize (kind : String) (len max : Nat) : Except TensorWasmError Unit :=
  if max < len then
    .error (.serialization ("snapshot " ++ kind ++ " too large: " ++ toString len ++
      " bytes exceeds cap of " ++ toString max ++ " bytes"))
  else .ok ()

/-- The caps of the three blobs, which the writer checks as the readers do. -/
def checkBlobSizes (wasmMemory gpuMemory registers : Bytes) : Except TensorWasmError Unit := do
  checkBlobSize "wasm_memory" wasmMemory.length maxWasmMemoryBytes
  checkBlobSize "gpu_memory" gpuMemory.length maxGpuMemoryBytes
  checkBlobSize "registers" registers.length maxRegistersBytes

/-! ## bincode -/

def noncePiece : Option (List.Vector UInt8 16) → Bytes
  | none => [0]
  | some nonce => 1 :: nonce.toList

/-- The pieces in which bincode writes a snapshot, in declaration order. -/
def Snapshot.pieces (s : Snapshot) : List Bytes :=
  [leBytes 4 s.magic.toNat, leBytes 4 s.version.toNat,
    leBytes 8 s.wasmMemory.length ++ s.wasmMemory, leBytes 8 s.gpuMemory.length ++ s.gpuMemory,
    leBytes 8 s.registers.length ++ s.registers,
    leBytes 8 s.metadata.tenantId.toNat, leBytes 16 s.metadata.instanceId.toNat,
    leBytes 8 s.metadata.createdUnixMs.toNat, leBytes 8 s.metadata.totalUncompressedBytes.toNat,
    leBytes 8 s.metadata.sequenceNo.toNat, noncePiece s.metadata.nonce, leBytes 4 s.crc32.toNat]

def Snapshot.payload (s : Snapshot) : Bytes := s.pieces.flatten

def uint32Reader : LimitedReader UInt32 := do
  let n ← number 4
  return UInt32.ofNat n

def uint64Reader : LimitedReader UInt64 := do
  let n ← number 8
  return UInt64.ofNat n

def uint128Reader : LimitedReader (BitVec 128) := do
  let n ← number 16
  return BitVec.ofNat 128 n

/-- `take` gives sixteen bytes, so that nothing is padded. -/
def nonceReader : LimitedReader (List.Vector UInt8 16) := do
  let bytes ← LimitedReader.take 16
  return ⟨bytes.takeD 16 0, List.takeD_length 16 bytes 0⟩

def metadataReader : LimitedReader SnapshotMetadata := do
  let tenantId ← uint64Reader
  let instanceId ← uint128Reader
  let createdUnixMs ← uint64Reader
  let totalUncompressedBytes ← uint64Reader
  let sequenceNo ← uint64Reader
  let nonce ← LimitedReader.option nonceReader
  return { tenantId, instanceId, createdUnixMs, totalUncompressedBytes, sequenceNo, nonce }

def snapshotReader : LimitedReader Snapshot := do
  let magic ← uint32Reader
  let version ← uint32Reader
  let wasmMemory ← counted
  let gpuMemory ← counted
  let registers ← counted
  let metadata ← metadataReader
  let crc32 ← uint32Reader
  return { magic, version, wasmMemory, gpuMemory, registers, metadata, crc32 }

/-- `decode_from_slice` under the static limit; what follows the snapshot is ignored. -/
def decodeSnapshot (bytes : Bytes) : Except TensorWasmError Snapshot :=
  match snapshotReader maxTotalPayloadBytes ⟨0, bytes⟩ with
  | .error e => .error (.bincodeDecode e)
  | .ok (snapshot, _) => .ok snapshot

end TensorWasm.Snapshots
