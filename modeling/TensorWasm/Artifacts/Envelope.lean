import TensorWasm.Lib.Codec
import TensorWasm.Lib.Traced

/-!
# The artifact envelope

The pure functions of `tensor-wasm-artifacts/src/lib.rs`: a payload is framed as
`magic ‖ version ‖ blake3 payload ‖ zstd payload ‖ hmac`. zstd, BLAKE3 and HMAC-SHA256 are parameters.
A decoder leaves a trace of what it does with bytes it is given, so that one can speak of the order in
which it authenticates, decompresses and hands out.
-/

namespace TensorWasm.Artifacts

open Lib

/-- `[u8; 32]`: a key, a tag or a hash. -/
abbrev Block := List.Vector UInt8 32

abbrev ContentHash := Block

/-! ## The libraries -/

/-- Where a zstd encoder can fail. -/
inductive ZstdError
  | init (e : String)
  | write (e : String)
  | finish (e : String)

/-- A run of a zstd decoder over an input: the bytes it emits, the fault it then ends with if any, and
where it stands in the input at the end. `pulled n` is how far it has read, its own buffer included, when
`n` bytes have been asked of it. -/
structure DecodeRun where
  output : Bytes
  fault : Option String
  consumed : Nat
  pulled : Nat → Nat

/-- The zstd library. An encoder is given a level and the pieces written to it; `single_frame` stops a
decoder after the first frame. -/
structure Zstd where
  encode : Int → List Bytes → Except ZstdError Bytes
  decodeFrame : Bytes → Except String DecodeRun
  decodeFrames : Bytes → Except String DecodeRun

/-- zstd is lossless and its frames delimit themselves. -/
structure Zstd.Lossless (Z : Zstd) : Prop where
  frame : ∀ level pieces c rest, Z.encode level pieces = .ok c →
    ∃ run, Z.decodeFrame (c ++ rest) = .ok run ∧ run.output = pieces.flatten ∧ run.fault = none ∧
      run.consumed = c.length
  frames : ∀ level pieces c, Z.encode level pieces = .ok c →
    ∃ run, Z.decodeFrames c = .ok run ∧ run.output = pieces.flatten ∧ run.fault = none

structure Primitives where
  zstd : Zstd
  hmacSha256 : Block → Bytes → Block
  blake3 : Bytes → Block

/-- `decoder.take(limit).read_to_end(..)`: at the limit the decoder is not asked again. -/
def DecodeRun.readToEnd (run : DecodeRun) (limit : Nat) : Except String Bytes :=
  if limit ≤ run.output.length then .ok (run.output.take limit)
  else
    match run.fault with
    | some e => .error e
    | none => .ok run.output

/-! ## Constants and errors -/

/-- `hex_into`: two lower-case digits a byte. -/
def hexInto (bytes : Bytes) : List Char :=
  bytes.flatMap fun b => [Nat.digitChar (b.toNat / 16), Nat.digitChar (b.toNat % 16)]

def artifactMagic : Bytes := utf8Bytes "twasm-artifact01"
def artifactVersion : Nat := 1
def artifactHmacLen : Nat := 32
def artifactHeaderLen : Nat := 16 + 4 + 32
def defaultZstdLevel : Int := 3
def maxPayloadLen : Nat := 256 * 1024 * 1024
def maxDecompressedLen : Nat := maxPayloadLen + 8 * 1024

inductive ArtifactError
  | notFound (hash : ContentHash)
  | badMagic
  | badVersion (version : Nat)
  | badHmac
  | hashMismatch (expected actual : Bytes)
  | decompression (e : String)
  | tooLarge (actual limit : Nat)
  | io
  deriving DecidableEq

/-- What a decoder does with bytes. -/
inductive Event
  /-- A tag over the message was recomputed and found right. -/
  | verified (message tag : Bytes)
  | decompress (input : Bytes)
  | deserialise (input : Bytes)
  /-- Decoded bytes go to the caller's writer. -/
  | write (bytes : Bytes)
  deriving DecidableEq

/-! ## Encoding -/

variable (P : Primitives)

def envelopeHeader (hash : ContentHash) : Bytes :=
  artifactMagic ++ (leBytes 4 artifactVersion ++ hash.toList)

/-- The bytes a file ends up with, given the compressed body. -/
def sealEnvelope (key : Block) (hash : ContentHash) (body : Bytes) : Bytes :=
  envelopeHeader hash ++ body ++ (P.hmacSha256 key (envelopeHeader hash ++ body)).toList

/-- `encode_envelope_to_writer`, with the writer's contents as result. -/
def encodeEnvelopeToWriter (payload : Bytes) (hmacKey : Block) : Except ArtifactError Bytes :=
  if maxPayloadLen < payload.length then .error (.tooLarge payload.length maxPayloadLen)
  else
    match P.zstd.encode defaultZstdLevel [payload] with
    | .error _ => .error .io
    | .ok body => .ok (sealEnvelope P hmacKey (P.blake3 payload) body)

/-! ## Decoding -/

/-- The checks of the fixed header, which all decoders make first: the length, the magic and the
version. The result is the hash on disk. -/
def checkHeader (bytes : Bytes) : Except ArtifactError Bytes :=
  if bytes.length < artifactHeaderLen + artifactHmacLen then .error .badMagic
  else if slice bytes 0 16 ≠ artifactMagic then .error .badMagic
  else if ofLeBytes (slice bytes 16 20) ≠ artifactVersion then
    .error (.badVersion (ofLeBytes (slice bytes 16 20)))
  else .ok (slice bytes 20 52)

/-- Compare the tag at the end of the bytes with the one recomputed over a message. -/
def checkTag (key : Block) (message tag : Bytes) : Traced Event ArtifactError Unit :=
  if (P.hmacSha256 key message).toList = tag then .perform (.verified message tag) (.ok ())
  else .fail .badHmac

/-- The size cap and the content hash of a decoded payload. -/
def checkPayload (cap : Nat) (hashOnDisk payload : Bytes) : Except ArtifactError Unit :=
  if cap < payload.length then .error (.tooLarge payload.length cap)
  else if (P.blake3 payload).toList ≠ hashOnDisk then
    .error (.hashMismatch hashOnDisk (P.blake3 payload).toList)
  else .ok ()

/-- Decompress a body, asking for at most `limit` bytes. -/
def decodeBody (limit : Nat) (body : Bytes) : Except ArtifactError Bytes :=
  match P.zstd.decodeFrames body with
  | .error e => .error (.decompression e)
  | .ok run => (run.readToEnd limit).mapError .decompression

/-- `decode_envelope_from_bytes_with_cap`. -/
def decodeEnvelopeFromBytesWithCap (bytes : Bytes) (hmacKey : Block) (maxDecompressed : Nat) :
    Traced Event ArtifactError Bytes := do
  let hashOnDisk ← .quiet (checkHeader bytes)
  let hmacStart := bytes.length - artifactHmacLen
  let message := bytes.take hmacStart
  checkTag P hmacKey message (bytes.drop hmacStart)
  let body := message.drop artifactHeaderLen
  let payload ← .perform (.decompress body) (decodeBody P (maxDecompressed + 1) body)
  .quiet (checkPayload P maxDecompressed hashOnDisk payload)
  return payload

/-- `decode_envelope_from_bytes`. -/
def decodeEnvelopeFromBytes (bytes : Bytes) (hmacKey : Block) : Traced Event ArtifactError Bytes :=
  decodeEnvelopeFromBytesWithCap P bytes hmacKey maxDecompressedLen

end TensorWasm.Artifacts
