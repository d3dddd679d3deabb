import TensorWasm.Jit.KernelCache
import TensorWasm.Jit.Registry

/-!
# From the cache to the registry

`get_with_registry_fallback` of `tensor-wasm-jit/src/cache.rs`: on a miss of the cache a resolver names
a kernel for the blueprint and the sm version of the key, and the kernel the registry has under that
name and version is put into the cache. `KernelRegistry` is the trait object of the configuration,
one of the two registries of the crate.
-/

namespace TensorWasm.Jit

open Lib

inductive KernelRegistry (Hash : Type) where
  | inMemory (registry : InMemoryRegistry)
  | disk (registry : DiskRegistry Hash)

def KernelRegistry.get {Hash : Type} [DecidableEq Hash] (env : RegistryEnv Hash)
    (registry : KernelRegistry Hash) (name version : String) : Except RegistryError ManifestBlob :=
  match registry with
  | .inMemory registry => registry.get name version
  | .disk registry => registry.get env name version

/-- `BlueprintResolver`: the embedder's map from a blueprint and an sm version to a name and version. -/
abbrev BlueprintResolver := UInt64 → UInt32 → Option (String × String)

/-- BLAKE3 as the cache uses it. -/
def RegistryEnv.digest {Hash : Type} (env : RegistryEnv Hash) (bytes : Bytes) : Bytes :=
  (env.blake3 bytes).toList

/-- The kernel made of a registry entry. A missing geometry hint is `(0, 0)`. -/
def fromRegistry (blake3 : Bytes → Bytes) (key : CacheKey) (entry : ManifestBlob) :
    CachedKernel :=
  let emitted : EmittedPtx :=
    { text := entry.2, launchGeometry := entry.1.launchGeometry.getD (0, 0) }
  CachedKernel.new blake3 key.blueprint emitted

/-- What the registry has for a key. -/
def KernelRegistry.resolve {Hash : Type} [DecidableEq Hash] (env : RegistryEnv Hash)
    (registry : Option (KernelRegistry Hash)) (resolver : BlueprintResolver) (key : CacheKey) :
    Option ManifestBlob := do
  let registry ← registry
  let (name, version) ← resolver key.blueprint key.smVersion
  (registry.get env name version).toOption

/-- `get_with_registry_fallback`; `disk` is the answer of the on-disk cache to a miss. -/
def KernelCache.getWithRegistryFallback {Hash : Type} [DecidableEq Hash] (env : RegistryEnv Hash)
    (c : KernelCache) (key : CacheKey) (disk : Option CachedKernel)
    (registry : Option (KernelRegistry Hash)) (resolver : BlueprintResolver) :
    KernelCache × Option CachedKernel :=
  let looked := c.get env.digest key disk
  match looked.2 with
  | some hit => (looked.1, some hit)
  | none =>
    match KernelRegistry.resolve env registry resolver key with
    | none => (looked.1, none)
    | some entry =>
      let cached := fromRegistry env.digest key entry
      (looked.1.put env.digest key cached, some cached)

end TensorWasm.Jit
