import TensorWasm.Jit.PtxEmit

/-!
# Cache keys and cached kernels

The values the kernel cache stores and the keys it stores them under
(`tensor-wasm-jit/src/cache.rs`). BLAKE3 is a parameter wherever a hash is computed. The compiled
handle is `()` on every path modelled here and is left out.
-/

namespace TensorWasm.Jit

open Lib

/-- The cache key. -/
structure CacheKey where
  tenantId : UInt64
  blueprint : UInt64
  smVersion : UInt32
  emitConfigHash : UInt64
  deriving DecidableEq

/-- A tenant-scoped key with no emitter-configuration hash. -/
def CacheKey.forTenant (tenantId blueprint : UInt64) (smVersion : UInt32) : CacheKey :=
  { tenantId := tenantId, blueprint := blueprint, smVersion := smVersion, emitConfigHash := 0 }

/-- What is hashed of an emitter configuration. -/
def EmitConfig.preimage (cfg : EmitConfig) : Bytes :=
  utf8Bytes "tensor-wasm-jit::EmitConfig::v1\x00" ++ utf8Bytes cfg.target ++ [0] ++
    utf8Bytes cfg.ptxVersion ++ [0] ++ [if cfg.launchBounds then 1 else 0]

/-- A cached PTX module; `integrityHash` covers the text. -/
structure CachedKernel where
  fingerprint : UInt64
  ptx : EmittedPtx
  integrityHash : Bytes
  deriving DecidableEq

/-- `CachedKernel::new`: the hash is computed from the text. -/
def CachedKernel.new (blake3 : Bytes → Bytes) (fingerprint : UInt64) (ptx : EmittedPtx) :
    CachedKernel :=
  { fingerprint := fingerprint, ptx := ptx, integrityHash := blake3 (utf8Bytes ptx.text) }

/-- Recompute the hash and compare. -/
def CachedKernel.verifyIntegrity (blake3 : Bytes → Bytes) (k : CachedKernel) : Bool :=
  blake3 (utf8Bytes k.ptx.text) == k.integrityHash

end TensorWasm.Jit
