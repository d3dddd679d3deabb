import TensorWasm.Jit.Kernel
import TensorWasm.Lib.Run

/-!
# The on-disk kernel cache

`DiskCache` of `tensor-wasm-jit/src/cache.rs`. A kernel is kept as a blob in a content-addressed
store and a sidecar file that names the blob; the sidecar's path is derived from the cache key, the
blob holds an envelope that repeats part of the key. BLAKE3 is a parameter, and the artifact store is
the map from content hashes to bytes that its own checks make of it: what it returns for a hash is
what was put under it. I/O errors are left out.
-/

namespace TensorWasm.Jit

open Lib

def diskCacheMagicV2 : Bytes := utf8Bytes "TWJIT-KRNL-v2\x00\x00\x00"
def diskCacheHeaderLenV2 : Nat := 16 + 8 + 8 + 4 + 4 + 4 + 8
def sidecarMagicV1 : Bytes := utf8Bytes "TWJIT-IDX-v1\x00\x00\x00\x00"
def sidecarLenV1 : Nat := 16 + 32

/-- Two lower-case hex digits a byte. -/
def hexEncode (bytes : Bytes) : String :=
  String.ofList (bytes.flatMap fun b =>
    [Nat.digitChar (b.toNat / 16), Nat.digitChar (b.toNat % 16)])

/-- The file name of a key's sidecar: a prefix that depends on the signing key, and the hash of the
whole cache key. -/
def pathFor (blake3 : Bytes → Bytes) (keyPrefixHex : String) (key : CacheKey) : String :=
  let digest := blake3 (utf8Bytes "tensor-wasm-jit::DiskCache::path::v1\x00" ++
    leBytes 8 key.tenantId.toNat ++ leBytes 8 key.blueprint.toNat ++ leBytes 4 key.smVersion.toNat ++
    leBytes 8 key.emitConfigHash.toNat)
  s!"{keyPrefixHex}-{hexEncode (digest.take 16)}.ptxbin"

/-- The envelope of a kernel. -/
def encodeV2Envelope (key : CacheKey) (kernel : CachedKernel) : Bytes :=
  diskCacheMagicV2 ++ (leBytes 8 key.tenantId.toNat ++ (leBytes 8 key.blueprint.toNat ++
    (leBytes 4 key.smVersion.toNat ++ (leBytes 4 kernel.ptx.launchGeometry.1.toNat ++
    (leBytes 4 kernel.ptx.launchGeometry.2.toNat ++ (leBytes 8 kernel.ptx.text.utf8ByteSize ++
    utf8Bytes kernel.ptx.text))))))

/-- The answer of `get`: a kernel, a miss, or a miss that counts as an integrity rejection. -/
inductive DiskAnswer where
  | hit (kernel : CachedKernel)
  | miss
  | rejected

/-- The kernel `get` returns; both kinds of miss are `Ok(None)`. -/
def DiskAnswer.kernel : DiskAnswer → Option CachedKernel
  | .hit kernel => some kernel
  | _ => none

def saturatingAddUsize (a b : Nat) : Nat := min (a + b) (2 ^ 64 - 1)

/-- Parse an envelope that the store has verified, for a requested key. -/
def openV2Envelope (blake3 : Bytes → Bytes) (key : CacheKey) (envelope : Bytes) :
    DiskAnswer :=
  if envelope.length < diskCacheHeaderLenV2 then .miss
  else if slice envelope 0 16 ≠ diskCacheMagicV2 then .rejected
  else
    let tenantOnDisk := ofLeBytes (slice envelope 16 24)
    let fingerprintOnDisk := ofLeBytes (slice envelope 24 32)
    let smVersionOnDisk := ofLeBytes (slice envelope 32 36)
    let gridXOnDisk := ofLeBytes (slice envelope 36 40)
    let blockXOnDisk := ofLeBytes (slice envelope 40 44)
    let ptxLenOnDisk := ofLeBytes (slice envelope 44 52)
    if tenantOnDisk ≠ key.tenantId.toNat ∨ fingerprintOnDisk ≠ key.blueprint.toNat ∨
        smVersionOnDisk ≠ key.smVersion.toNat then .rejected
    else
      let ptxEnd := saturatingAddUsize diskCacheHeaderLenV2 ptxLenOnDisk
      if ptxEnd > envelope.length then .rejected
      else
        match ofUtf8 (slice envelope diskCacheHeaderLenV2 ptxEnd) with
        | none => .rejected
        | some text =>
          .hit (CachedKernel.new blake3 (UInt64.ofNat fingerprintOnDisk)
            ⟨text, (UInt32.ofNat gridXOnDisk, UInt32.ofNat blockXOnDisk)⟩)

/-- The cache directory: sidecar files by name, blobs by content hash. -/
structure DiskCache where
  keyPrefixHex : String
  sidecars : String → Option Bytes
  blobs : Bytes → Option Bytes

namespace DiskCache

def empty (keyPrefixHex : String) : DiskCache := ⟨keyPrefixHex, fun _ => none, fun _ => none⟩

/-- The sidecar that names an envelope. -/
def sidecarFor (blake3 : Bytes → Bytes) (envelope : Bytes) : Bytes :=
  sidecarMagicV1 ++ blake3 envelope

def put (blake3 : Bytes → Bytes) (d : DiskCache) (key : CacheKey) (kernel : CachedKernel) : DiskCache :=
  let envelope := encodeV2Envelope key kernel
  { d with
    blobs := Function.update d.blobs (blake3 envelope) (some envelope),
    sidecars := Function.update d.sidecars (pathFor blake3 d.keyPrefixHex key)
      (some (sidecarFor blake3 envelope)) }

def get (blake3 : Bytes → Bytes) (d : DiskCache) (key : CacheKey) : DiskAnswer :=
  match d.sidecars (pathFor blake3 d.keyPrefixHex key) with
  | none => .miss
  | some sidecar =>
    if sidecar.length ≠ sidecarLenV1 then .miss
    else if slice sidecar 0 16 ≠ sidecarMagicV1 then .miss
    else
      match d.blobs (slice sidecar 16 48) with
      | none => .miss
      | some envelope => openV2Envelope blake3 key envelope

end DiskCache

/-- What happens to the directory: kernels are put, and sidecar files come to hold anything. -/
inductive DiskAction where
  | put (key : CacheKey) (kernel : CachedKernel)
  | plant (path : String) (contents : Option Bytes)

def DiskCache.step (blake3 : Bytes → Bytes) (d : DiskCache) : DiskAction → DiskCache
  | .put key kernel => d.put blake3 key kernel
  | .plant path contents => { d with sidecars := Function.update d.sidecars path contents }

end TensorWasm.Jit
