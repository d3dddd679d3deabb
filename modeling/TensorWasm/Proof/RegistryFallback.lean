import TensorWasm.Jit.RegistryFallback
import TensorWasm.Proof.KernelCache
import TensorWasm.Proof.RegistryKeys

/-!
# Kernels the cache takes from the registry

What the fallback takes from a registry is what the registry has for the name and version of the
resolver: with the disk registry the highest sm version accepted for them, with the in-memory registry
the kernel filed under their text. The sm version of the key reaches the resolver and nothing else. A
kernel that is taken is at the front of the queue, so the next `get` finds it; for that the map has to
lie within the queue, which holds in every run, also after refused entries.
-/

namespace TensorWasm.Jit

open Lib KernelCache
open KernelRegistry (resolve)

/-! ## The queue in every run -/

theorem Queued.congr {c c' : KernelCache} (h : Queued c') (heq : SameEntries c c') : Queued c := by
  refine ⟨?_, ?_⟩
  · rw [heq.lru, heq.config]
    exact h.cap
  · rw [heq.lru, heq.storage]
    exact h.queued

variable {c : KernelCache}

theorem Queued.promote (h : Queued c) (key : CacheKey) : Queued { c with lru := c.lru.promote key } :=
  ⟨(c.lru.promote_cap key).trans h.cap, fun k hk => Lru.mem_promote.mpr (h.queued k hk)⟩

theorem Queued.evictKey (h : Queued c) (key : CacheKey) : Queued (c.evictKey key) := by
  obtain ⟨hstorage, hlru, hconfig, -⟩ := evictKey_spec c key
  refine ⟨?_, ?_⟩
  · rw [hlru, hconfig]
    exact h.cap
  · intro k hk
    rw [hstorage, AList.mem_erase] at hk
    rw [hlru]
    exact h.queued k hk.2

variable {blake3 : Bytes → Bytes}

theorem Queued.get (h : Queued c) (key : CacheKey) (disk : Option CachedKernel) :
    Queued (c.get blake3 key disk).1 := by
  have hpromoted := h.promote key
  rcases get_cases blake3 c key disk with ⟨-, hsame⟩ | ⟨-, hsame⟩ | ⟨-, kernel, hsame⟩
  · exact hpromoted.congr hsame
  · exact (hpromoted.evictKey key).congr hsame
  · exact (hpromoted.enter key kernel).enforceByteCap.toQueued.congr hsame

theorem Queued.tamper (h : Queued c) (key : CacheKey) (kernel : CachedKernel) : Queued (c.tamper key kernel) := by
  unfold KernelCache.tamper
  cases hold : c.storage.lookup key with
  | none => exact h
  | some old =>
    have hmem : key ∈ c.storage := AList.lookup_isSome.mp (by rw [hold]; rfl)
    dsimp only
    split
    · refine ⟨h.cap, ?_⟩
      intro k hk
      rcases (AList.mem_insert _).mp hk with rfl | hk
      · exact h.queued _ hmem
      · exact h.queued k hk
    · exact h

theorem Queued.step (c : KernelCache) (a : CacheAction) (h : Queued c) : Queued (c.step blake3 a) := by
  cases a with
  | put key kernel =>
    by_cases hkernel : kernel.verifyIntegrity blake3
    · exact (h.put key hkernel).toQueued
    · show Queued (c.put blake3 key kernel)
      rw [put_refused c key hkernel]
      exact h
  | get key disk => exact h.get key disk
  | tamper key kernel => exact h.tamper key kernel

theorem queued_run (blake3 : Bytes → Bytes) (config : KernelCacheConfig) (actions : List CacheAction) :
    Queued (run (KernelCache.step blake3) (withConfig config) actions) := by
  have hstart : Queued (withConfig config) := (CacheInvariant.init blake3 config).toQueued
  exact run_keeps Queued.step hstart actions

/-- A kernel of the map that is not refused is found. -/
theorem get_of_lookup {key : CacheKey} {kernel : CachedKernel} (hlookup : c.storage.lookup key = some kernel)
    (hkept : ¬ rejected blake3 c.config.verifyOnGet kernel) (disk : Option CachedKernel) :
    (c.get blake3 key disk).2 = some kernel := by
  have hconfig := (SameEntries.countSkip { c with lru := c.lru.promote key }).config
  unfold KernelCache.get
  simp only [hlookup, hconfig]
  rw [if_neg hkept]

/-! ## Taking a kernel over -/

section

variable {Hash : Type} [DecidableEq Hash]

theorem verifyIntegrity_fromRegistry (blake3 : Bytes → Bytes) (key : CacheKey)
    (entry : ManifestBlob) : (fromRegistry blake3 key entry).verifyIntegrity blake3 := by
  simp [fromRegistry, CachedKernel.new, CachedKernel.verifyIntegrity]

/-- A kernel with the hash of its text is refused only where that hash is all zero. -/
theorem not_rejected_fromRegistry {blake3 : Bytes → Bytes}
    (hzero : ∀ bytes, blake3 bytes ≠ List.replicate 32 0) (verifyOnGet : Bool) (key : CacheKey)
    (entry : ManifestBlob) : ¬ rejected blake3 verifyOnGet (fromRegistry blake3 key entry) := by
  unfold rejected
  cases verifyOnGet with
  | true => simp [verifyIntegrity_fromRegistry blake3 key entry]
  | false => simpa [fromRegistry, CachedKernel.new] using hzero _

/-- What the fallback does: what `get` does, or on a miss a `put` of the registry's kernel. -/
theorem getWithRegistryFallback_cases (env : RegistryEnv Hash) (c : KernelCache) (key : CacheKey)
    (disk : Option CachedKernel) (registry : Option (KernelRegistry Hash)) (resolver : BlueprintResolver) :
    c.getWithRegistryFallback env key disk registry resolver = c.get env.digest key disk ∨
    ∃ entry, resolve env registry resolver key = some entry ∧
      c.getWithRegistryFallback env key disk registry resolver =
        ((c.get env.digest key disk).1.put env.digest key (fromRegistry env.digest key entry),
          some (fromRegistry env.digest key entry)) := by
  unfold KernelCache.getWithRegistryFallback
  dsimp only
  cases hlooked : (c.get env.digest key disk).2 with
  | some hit => exact .inl (Prod.ext rfl hlooked.symm)
  | none =>
    cases hentry : resolve env registry resolver key with
    | none => exact .inl (Prod.ext rfl hlooked.symm)
    | some entry => exact .inr ⟨entry, rfl, rfl⟩

variable {registry : KernelRegistry Hash}

theorem resolve_eq_some {env : RegistryEnv Hash} {resolver : BlueprintResolver} {key : CacheKey}
    {entry : ManifestBlob} (h : resolve env (some registry) resolver key = some entry) :
    ∃ name version, resolver key.blueprint key.smVersion = some (name, version) ∧
      registry.get env name version = .ok entry := by
  unfold resolve at h
  obtain ⟨r, hr, h⟩ := Option.bind_eq_some_iff.mp h
  cases hr
  obtain ⟨⟨name, version⟩, hresolved, h⟩ := Option.bind_eq_some_iff.mp h
  refine ⟨name, version, hresolved, ?_⟩
  dsimp only at h
  cases hget : registry.get env name version with
  | error e =>
    rw [hget] at h
    cases h
  | ok found =>
    rw [hget] at h
    exact congrArg Except.ok (Option.some.inj h)

/-- A registry that can exist, with the blobs it has accepted. Those a disk registry has stored are told apart
by their content hashes. -/
inductive Content (env : RegistryEnv Hash) : KernelRegistry Hash → List ManifestBlob → Prop
  | inMemory (calls : List ManifestBlob) :
    Content env (.inMemory (published env.blake3 env.hmac calls).1)
      (published env.blake3 env.hmac calls).2
  | disk (listing : Listing Hash) (allowlist : Option (List String))
      (calls : List (RegistryCall Hash)) (hcollision : env.NoCollision (history env listing allowlist calls).2) :
    Content env (.disk (history env listing allowlist calls).1)
      (history env listing allowlist calls).2

/-- What a registry may have for a name and version: an accepted blob of their text; with the disk
registry the one of theirs with the highest sm version. -/
def Found (log : List ManifestBlob) (name version : String) (blob : ManifestBlob) :
    KernelRegistry Hash → Prop
  | .inMemory _ => blob ∈ log ∧ filedUnder blob = atVersion name version
  | .disk _ => Highest log name version blob

theorem Content.found {env : RegistryEnv Hash} {log : List ManifestBlob} (h : Content env registry log)
    {name version : String} {blob : ManifestBlob} (hget : registry.get env name version = .ok blob) :
    Found log name version blob registry ∧ env.blake3 (utf8Bytes blob.2) = blob.1.digest := by
  cases h with
  | inMemory calls =>
    have hlookup := (InMemoryRegistry.get_eq_ok _ _ _ _).mp hget
    have hanswers := List.find?_some (lookup_published calls _ ▸ hlookup)
    simp only [answersTo, Bool.and_eq_true, beq_iff_eq] at hanswers
    refine ⟨⟨mem_log_of_lookup calls hlookup, hanswers.2⟩, ?_⟩
    -- a text with another digest does not pass the checks
    by_contra hdigest
    simp [checkKernel, hdigest, Except.isOk, Except.toBool] at hanswers
  | disk listing allowlist calls hcollision =>
    have hrepresents := represents_history env listing allowlist calls hcollision
    have hget' : (history env listing allowlist calls).1.get env name version = .ok blob := hget
    rcases hrepresents.get name version with ⟨b, hb, hok⟩ | ⟨-, herror⟩
    · obtain rfl := Except.ok.inj (hok.symm.trans hget')
      exact ⟨hb, (hrepresents.holds.verified b hb.1).2⟩
    · cases herror.symm.trans hget'

/-- **The registry fallback.** In every run of the cache and with every registry, the fallback does
what `get` does, or it puts in and returns a kernel that the registry has for the name and version of
the resolver and whose text has the digest of its manifest; the next `get` of the key returns the same
kernel. The hash of a text is taken never to be the all-zero mark. -/
theorem fallback_serves_found (env : RegistryEnv Hash)
    (hzero : ∀ bytes, env.digest bytes ≠ List.replicate 32 0) {registry : KernelRegistry Hash}
    {log : List ManifestBlob} (hcontent : Content env registry log) (config : KernelCacheConfig)
    (actions : List CacheAction) (key : CacheKey) (disk : Option CachedKernel)
    (resolver : BlueprintResolver) :
    let c := run (KernelCache.step env.digest) (withConfig config) actions
    let out := c.getWithRegistryFallback env key disk (some registry) resolver
    out = c.get env.digest key disk ∨
      ∃ name version blob, resolver key.blueprint key.smVersion = some (name, version) ∧
        Found log name version blob registry ∧ env.blake3 (utf8Bytes blob.2) = blob.1.digest ∧
        out.2 = some (fromRegistry env.digest key blob) ∧ (fromRegistry env.digest key blob).ptx.text = blob.2 ∧
        ∀ later, (out.1.get env.digest key later).2 = some (fromRegistry env.digest key blob) := by
  intro c out
  rcases getWithRegistryFallback_cases env c key disk (some registry) resolver with
    hplain | ⟨blob, hresolve, hput⟩
  · exact .inl hplain
  · obtain ⟨name, version, hresolved, hget⟩ := resolve_eq_some hresolve
    obtain ⟨hfound, hdigest⟩ := hcontent.found hget
    refine .inr ⟨name, version, blob, hresolved, hfound, hdigest, congrArg Prod.snd hput, rfl, ?_⟩
    intro later
    have hqueued : Queued (c.get env.digest key disk).1 :=
      (queued_run env.digest config actions).get key disk
    have hheld := hqueued.put key (verifyIntegrity_fromRegistry env.digest key blob)
    have hafter : out.1 = (c.get env.digest key disk).1.put env.digest key
        (fromRegistry env.digest key blob) := congrArg Prod.fst hput
    rw [hafter]
    exact get_of_lookup hheld.present (not_rejected_fromRegistry hzero _ key blob) later

end

def addResolver : BlueprintResolver := fun _ _ => some ("add", "1")

theorem fallback_serves_found_both :
    (∀ bytes, sm80And90.digest bytes ≠ List.replicate 32 0) ∧
      Content sm80And90 (.disk bothPublished.1) bothPublished.2 ∧
      ∀ later, (((withConfig ⟨4, none, false⟩).getWithRegistryFallback sm80And90 ⟨1, 7, 90, 0⟩ none
          (some (.disk bothPublished.1)) addResolver).1.get sm80And90.digest ⟨1, 7, 90, 0⟩ later).2 =
        some (fromRegistry sm80And90.digest ⟨1, 7, 90, 0⟩ (kernelFor 90 "ninety")) := by
  have hzero : ∀ bytes, sm80And90.digest bytes ≠ List.replicate 32 0 := by
    intro bytes
    show (Vector.replicate 32 (1 : UInt8)).toList ≠ List.replicate 32 0
    decide
  have hcontent : Content sm80And90 (.disk bothPublished.1) bothPublished.2 :=
    .disk storeOrder none _ (noCollision_twoKernelEnv _ _ _)
  refine ⟨hzero, hcontent, ?_⟩
  rcases fallback_serves_found sm80And90 hzero hcontent ⟨4, none, false⟩ [] ⟨1, 7, 90, 0⟩ none
      addResolver with hplain | ⟨name, version, blob, -, -, -, hout, -, hlater⟩
  · exact absurd (congrArg (fun out => out.2.isSome) hplain) (by decide +kernel)
  · have hblob : ((withConfig ⟨4, none, false⟩).getWithRegistryFallback sm80And90 ⟨1, 7, 90, 0⟩ none
        (some (.disk bothPublished.1)) addResolver).2 =
        some (fromRegistry sm80And90.digest ⟨1, 7, 90, 0⟩ (kernelFor 90 "ninety")) := by
      decide +kernel
    rw [← hblob.symm.trans hout] at hlater
    exact hlater

/-- With the kernel published for both sm versions, a key for sm 80 gets the text for sm 90, and keeps
it. -/
theorem key_gets_other_sm :
    let key : CacheKey := ⟨1, 7, 80, 0⟩
    let out := (withConfig ⟨4, none, true⟩).getWithRegistryFallback sm80And90 key none
      (some (.disk bothPublished.1)) addResolver
    bothPublished.1.get sm80And90 "add" "1" = .ok (kernelFor 90 "ninety") ∧
      out.2.map (fun kernel => kernel.ptx.text) = some "ninety" ∧
      (out.1.get sm80And90.digest key none).2 = out.2 ∧
      (kernelFor 90 "ninety").1.smVersion ≠ key.smVersion := by
  decide +kernel

end TensorWasm.Jit
