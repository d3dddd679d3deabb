import TensorWasm.Lib.Codec
import TensorWasm.Lib.SortedInsert
import Mathlib.Data.List.AList

/-!
# The kernel registry

`tensor-wasm-jit/src/registry.rs`: signed kernel manifests and the disk-backed registry. BLAKE3, the
HMAC, the blob codec and the artifact store's content hash are parameters; the store itself is the
map from content hashes to blobs that it keeps on disk, so it survives a restart, while the keymap and
the index of sm versions are rebuilt from it.
-/

namespace TensorWasm.Jit

open Lib

/-- A signed kernel manifest. -/
structure KernelManifest where
  name : String
  version : String
  smVersion : UInt32
  digest : Vector UInt8 32
  signature : Vector UInt8 32
  publishedUnixMs : UInt64
  publisher : String
  launchGeometry : Option (UInt32 × UInt32)
  deriving DecidableEq

def signedBytesMagicV2 : Bytes := utf8Bytes "twasm-kmf-v2"

/-- `push_len_prefixed`: the bytes after their length. -/
def lenPrefixed (bytes : Bytes) : Bytes := leBytes 8 bytes.length ++ bytes

/-- The canonical signed bytes. The launch geometry is not among them. -/
def KernelManifest.canonicalSignedBytes (m : KernelManifest) : Bytes :=
  signedBytesMagicV2 ++ (lenPrefixed (utf8Bytes m.name) ++ (lenPrefixed (utf8Bytes m.version) ++
    (lenPrefixed (utf8Bytes m.publisher) ++ (lenPrefixed (leBytes 8 m.publishedUnixMs.toNat) ++
    (lenPrefixed (leBytes 4 m.smVersion.toNat) ++ lenPrefixed m.digest.toList)))))

inductive RegistryError where
  | notFound (what : String)
  | badSignature (name : String)
  | digestMismatch (name : String)
  | alreadyRegistered (what : String)
  | publisherNotAllowed (name : String)
  | storage (reason : String)
  | codec (reason : String)
  deriving DecidableEq

/-- Recompute the tag and compare. -/
def verifyManifestSignature (hmac : Bytes → Bytes) (m : KernelManifest) : Except RegistryError Unit :=
  if hmac m.canonicalSignedBytes = m.signature.toList then .ok ()
  else .error (.badSignature m.name)

/-! ## The disk registry -/

/-- `ManifestBlob`: what the artifact store holds, a manifest with its PTX text. -/
abbrev ManifestBlob := KernelManifest × String

/-- The triple a kernel is registered under. -/
def KernelManifest.key (m : KernelManifest) : String × String × UInt32 :=
  (m.name, m.version, m.smVersion)

/-- What the registry calls outside itself: the PTX digest, the HMAC under the registry's key, the
blob codec and the content address. The codec reads back what it wrote. -/
structure RegistryEnv (Hash : Type) where
  blake3 : Bytes → Vector UInt8 32
  hmac : Bytes → Bytes
  encodeManifestBlob : ManifestBlob → Except RegistryError Bytes
  decodeManifestBlob : Bytes → Except RegistryError ManifestBlob
  contentHash : Bytes → Hash
  decode_encode : ∀ blob bytes, encodeManifestBlob blob = .ok bytes → decodeManifestBlob bytes = .ok blob

structure KeymapEntry (Hash : Type) where
  hash : Hash
  manifest : KernelManifest

/-- The registry over a store that maps content hashes to blobs. -/
structure DiskRegistry (Hash : Type) where
  artifactStore : AList fun _ : Hash => Bytes
  keymap : AList fun _ : String × String × UInt32 => KeymapEntry Hash
  smIndex : AList fun _ : String × String => List UInt32
  publisherAllowlist : Option (List String)

section

variable {Hash : Type}

/-- `index_sm_version`. -/
def indexSmVersion (index : AList fun _ : String × String => List UInt32) (name version : String)
    (sm : UInt32) : AList fun _ : String × String => List UInt32 :=
  index.insert (name, version) (insertSorted ((index.lookup (name, version)).getD []) sm)

/-- The keymap and index updates that take in a verified manifest. -/
def DiskRegistry.catalogue (s : DiskRegistry Hash) (m : KernelManifest) (hash : Hash) : DiskRegistry Hash :=
  { s with
    keymap := s.keymap.insert m.key ⟨hash, m⟩
    smIndex := indexSmVersion s.smIndex m.name m.version m.smVersion }

variable [DecidableEq Hash] (env : RegistryEnv Hash)

/-- One blob of the recovery pass: a blob that cannot be read, decoded or verified is skipped. -/
def DiskRegistry.recoverBlob (s : DiskRegistry Hash) (hash : Hash) : DiskRegistry Hash :=
  match s.artifactStore.lookup hash with
  | none => s
  | some raw =>
    match env.decodeManifestBlob raw with
    | .error _ => s
    | .ok (m, _) =>
      match verifyManifestSignature env.hmac m with
      | .error _ => s
      | .ok () => s.catalogue m hash

/-- An order in which the store may list its hashes; it may repeat some. -/
structure Listing (Hash : Type) where
  order : List Hash → List Hash
  mem_order : ∀ hashes hash, hash ∈ order hashes ↔ hash ∈ hashes

/-- `open` on the directory of a store, then `with_publisher_allowlist` if there is one. -/
def openRegistry (listing : Listing Hash) (store : AList fun _ : Hash => Bytes)
    (allowlist : Option (List String)) : DiskRegistry Hash :=
  (listing.order store.keys).foldl (DiskRegistry.recoverBlob env) ⟨store, ∅, ∅, allowlist⟩

/-- The publisher check: without an allowlist every publisher may publish. -/
def DiskRegistry.allows (s : DiskRegistry Hash) (publisher : String) : Bool :=
  match s.publisherAllowlist with
  | none => true
  | some allow => allow.contains publisher

/-- `publish`. A write that the store refuses is given by its reason. -/
def DiskRegistry.publish (s : DiskRegistry Hash) (m : KernelManifest) (ptxText : String)
    (putError : Option String) : DiskRegistry Hash × Except RegistryError Unit :=
  if !s.allows m.publisher then (s, .error (.publisherNotAllowed m.name))
  else if env.blake3 (utf8Bytes ptxText) ≠ m.digest then (s, .error (.digestMismatch m.name))
  else
    match verifyManifestSignature env.hmac m with
    | .error e => (s, .error e)
    | .ok () =>
      if m.key ∈ s.keymap then
        (s, .error (.alreadyRegistered
          s!"{m.name}@{m.version} (sm_{m.smVersion})"))
      else
        match env.encodeManifestBlob (m, ptxText) with
        | .error e => (s, .error e)
        | .ok bytes =>
          match putError with
          | some reason => (s, .error (.storage reason))
          | none =>
            let hash := env.contentHash bytes
            ({ s with artifactStore := s.artifactStore.insert hash bytes }.catalogue m hash, .ok ())

/-- `get`: the highest sm version of the index, then the keymap, then the blob. -/
def DiskRegistry.get (s : DiskRegistry Hash) (name version : String) : Except RegistryError ManifestBlob :=
  let bestSm := (s.smIndex.lookup (name, version)).bind List.getLast?
  let hit := bestSm.bind fun sm => (s.keymap.lookup (name, version, sm)).map KeymapEntry.hash
  match hit with
  | none => .error (.notFound s!"{name}@{version}")
  | some hash =>
    match s.artifactStore.lookup hash with
    | none => .error (.notFound s!"{name}@{version}")
    | some raw => env.decodeManifestBlob raw

def diskRegistryDefaultLimit : Nat := 100

def diskRegistryMaxLimit : Nat := 1000

/-- The loop of `list_paginated` over the entries that the map still has to give, the next of them the `i`-th. -/
def listEntries (offset limit : Nat) : Nat → List (KeymapEntry Hash) → List KernelManifest → List KernelManifest
  | _, [], out => out
  | i, entry :: rest, out =>
    if i < offset then listEntries offset limit (i + 1) rest out
    else if limit ≤ out.length then out
    else listEntries offset limit (i + 1) rest (out ++ [entry.manifest])

/-- `list_paginated`, where the map gives its entries in the order of `walk`. -/
def DiskRegistry.listPaginated (walk : List (KeymapEntry Hash)) (offset limit : Nat) : List KernelManifest :=
  listEntries offset (min limit diskRegistryMaxLimit) 0 walk []

def DiskRegistry.list (walk : List (KeymapEntry Hash)) : List KernelManifest :=
  DiskRegistry.listPaginated walk 0 diskRegistryDefaultLimit

/-- What happens to a registry: a publish, or a restart under the same key. -/
inductive RegistryCall (Hash : Type) where
  | publish (m : KernelManifest) (ptxText : String) (putError : Option String)
  | reopen (listing : Listing Hash) (allowlist : Option (List String))

def DiskRegistry.call (s : DiskRegistry Hash) : RegistryCall Hash → DiskRegistry Hash
  | .publish m ptxText putError => (s.publish env m ptxText putError).1
  | .reopen listing allowlist => openRegistry env listing s.artifactStore allowlist

end

/-! ## The in-memory registry -/

/-- The text a kernel goes by. -/
def atVersion (name version : String) : String := s!"{name}@{version}"

/-- The checks on a kernel itself: the digest of its text, then the signature. -/
def checkKernel (blake3 : Bytes → Vector UInt8 32) (hmac : Bytes → Bytes)
    (blob : ManifestBlob) : Except RegistryError Unit :=
  if blake3 (utf8Bytes blob.2) ≠ blob.1.digest then .error (.digestMismatch blob.1.name)
  else verifyManifestSignature hmac blob.1

structure InMemoryRegistry where
  entries : AList fun _ : String => ManifestBlob

namespace InMemoryRegistry

def new : InMemoryRegistry := ⟨∅⟩

/-- `publish`: digest, signature, uniqueness, in this order. The sm version is not part of the key. -/
def publish (blake3 : Bytes → Vector UInt8 32) (hmac : Bytes → Bytes)
    (s : InMemoryRegistry) (m : KernelManifest) (ptxText : String) :
    InMemoryRegistry × Except RegistryError Unit :=
  match checkKernel blake3 hmac (m, ptxText) with
  | .error e => (s, .error e)
  | .ok () =>
    let key := atVersion m.name m.version
    if key ∈ s.entries then (s, .error (.alreadyRegistered key))
    else (⟨s.entries.insert key (m, ptxText)⟩, .ok ())

def get (s : InMemoryRegistry) (name version : String) : Except RegistryError ManifestBlob :=
  match s.entries.lookup (atVersion name version) with
  | some blob => .ok blob
  | none => .error (.notFound (atVersion name version))

/-- `list`, where the map gives its values in the order of `walk`. -/
def list (walk : List ManifestBlob) : List KernelManifest := walk.map Prod.fst

/-- The `list_paginated` that a registry has by default. -/
def listPaginated (walk : List ManifestBlob) (offset limit : Nat) : List KernelManifest :=
  ((list walk).drop offset).take (min limit diskRegistryMaxLimit)

end InMemoryRegistry

end TensorWasm.Jit
