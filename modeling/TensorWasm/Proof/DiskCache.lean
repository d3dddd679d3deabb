import TensorWasm.Jit.DiskCache

/-!
# What the on-disk kernel cache gives back

Everything follows from one fact: what the reader makes of an envelope the writer made
(`openV2Envelope_encode`). The envelope repeats tenant, blueprint and sm version of the key, and the
reader compares these three; the emitter-configuration hash is in the path of the sidecar only.
-/

namespace TensorWasm.Jit

open Lib
open DiskCache (sidecarFor)

/-- The header fields of an envelope, at the reader's offsets. -/
theorem slice_envelope (key : CacheKey) (kernel : CachedKernel) :
    slice (encodeV2Envelope key kernel) 0 16 = diskCacheMagicV2 ∧
    slice (encodeV2Envelope key kernel) 16 24 = leBytes 8 key.tenantId.toNat ∧
    slice (encodeV2Envelope key kernel) 24 32 = leBytes 8 key.blueprint.toNat ∧
    slice (encodeV2Envelope key kernel) 32 36 = leBytes 4 key.smVersion.toNat ∧
    slice (encodeV2Envelope key kernel) 36 40 = leBytes 4 kernel.ptx.launchGeometry.1.toNat ∧
    slice (encodeV2Envelope key kernel) 40 44 = leBytes 4 kernel.ptx.launchGeometry.2.toNat ∧
    slice (encodeV2Envelope key kernel) 44 52 = leBytes 8 kernel.ptx.text.utf8ByteSize ∧
    ∀ j, j = 52 + kernel.ptx.text.utf8ByteSize →
      slice (encodeV2Envelope key kernel) 52 j = utf8Bytes kernel.ptx.text := by
  have hmagic : diskCacheMagicV2.length = 16 := by decide
  unfold encodeV2Envelope
  refine ⟨slice_append_left hmagic, ?_, ?_, ?_, ?_, ?_, ?_, ?_⟩
  case refine_7 =>
    rintro j rfl
    simp only [slice_append_right, hmagic, length_leBytes, Nat.reduceLeDiff, Nat.reduceSub]
    exact slice_all (by rw [length_utf8Bytes]; omega)
  all_goals simp [slice_append_right, slice_append_left, hmagic]

/-- The envelope of a kernel fits in memory. -/
def Storable (kernel : CachedKernel) : Prop :=
  diskCacheHeaderLenV2 + kernel.ptx.text.utf8ByteSize < 2 ^ 64

variable {kernel : CachedKernel}

/-- **What the reader makes of a written envelope**: a hit exactly for a key with the same tenant,
blueprint and sm version. -/
theorem openV2Envelope_encode (blake3 : Bytes → Bytes) (key key' : CacheKey)
    (hfits : Storable kernel) :
    openV2Envelope blake3 key (encodeV2Envelope key' kernel) =
      if key'.tenantId = key.tenantId ∧ key'.blueprint = key.blueprint ∧
          key'.smVersion = key.smVersion then
        .hit (CachedKernel.new blake3 key.blueprint kernel.ptx)
      else .rejected := by
  obtain ⟨hmagic, htenant, hblueprint, hsm, hgrid, hblock, hlen, htext⟩ := slice_envelope key' kernel
  have hlength : (encodeV2Envelope key' kernel).length = 52 + kernel.ptx.text.utf8ByteSize := by
    have : diskCacheMagicV2.length = 16 := by decide
    simp [encodeV2Envelope, this]
    omega
  have hheader : diskCacheHeaderLenV2 = 52 := rfl
  have hfits' : 52 + kernel.ptx.text.utf8ByteSize < 2 ^ 64 := hfits
  unfold openV2Envelope
  rw [if_neg (by rw [hlength, hheader]; omega), if_neg (not_not.mpr hmagic)]
  dsimp only
  rw [htenant, hblueprint, hsm, hgrid, hblock, hlen,
    ofLeBytes_leBytes_uint64, ofLeBytes_leBytes_uint64, ofLeBytes_leBytes_uint32,
    ofLeBytes_leBytes_uint32, ofLeBytes_leBytes_uint32,
    ofLeBytes_leBytes_of_lt (show kernel.ptx.text.utf8ByteSize < 256 ^ 8 by omega)]
  by_cases hsame : key'.tenantId = key.tenantId ∧ key'.blueprint = key.blueprint ∧ key'.smVersion = key.smVersion
  · obtain ⟨ht, hb, hs⟩ := hsame
    have hend : saturatingAddUsize 52 kernel.ptx.text.utf8ByteSize = 52 + kernel.ptx.text.utf8ByteSize := by
      unfold saturatingAddUsize
      omega
    rw [if_neg (by rw [ht, hb, hs]; simp), hheader, hend, if_neg (by omega), htext _ rfl,
      ofUtf8_utf8Bytes, if_pos ⟨ht, hb, hs⟩, hb, UInt64.ofNat_toNat, UInt32.ofNat_toNat, UInt32.ofNat_toNat]
  · rw [if_neg hsame, if_pos]
    by_contra hmatch
    simp only [not_or, not_not, UInt64.toNat_inj, UInt32.toNat_inj] at hmatch
    exact hsame hmatch

/-! ## Reading what was put -/

variable {blake3 : Bytes → Bytes} (hblake3 : ∀ x, (blake3 x).length = 32)

include hblake3

theorem slice_sidecar (envelope : Bytes) :
    (sidecarFor blake3 envelope).length = sidecarLenV1 ∧
      slice (sidecarFor blake3 envelope) 0 16 = sidecarMagicV1 ∧
      slice (sidecarFor blake3 envelope) 16 48 = blake3 envelope := by
  have hmagic : sidecarMagicV1.length = 16 := by decide
  unfold sidecarFor
  refine ⟨?_, slice_append_left hmagic, ?_⟩
  · rw [List.length_append, hmagic, hblake3]
    rfl
  · rw [slice_append_right (Nat.le_of_eq hmagic), hmagic]
    exact slice_all (by rw [hblake3])

variable {d : DiskCache}

/-- A sidecar for an envelope in the store leads to that envelope, whatever its path. -/
theorem get_of_sidecar {key : CacheKey} {envelope : Bytes}
    (hsidecar : d.sidecars (pathFor blake3 d.keyPrefixHex key) = some (sidecarFor blake3 envelope))
    (hblob : d.blobs (blake3 envelope) = some envelope) : d.get blake3 key = openV2Envelope blake3 key envelope := by
  obtain ⟨hlength, hmagic, hhash⟩ := slice_sidecar hblake3 envelope
  unfold DiskCache.get
  rw [hsidecar]
  dsimp only
  rw [if_neg (not_not.mpr hlength), if_neg (not_not.mpr hmagic), hhash, hblob]

theorem get_put (d : DiskCache) (key : CacheKey) (hfits : Storable kernel) :
    (d.put blake3 key kernel).get blake3 key = .hit (CachedKernel.new blake3 key.blueprint kernel.ptx) := by
  have hget : (d.put blake3 key kernel).get blake3 key =
      openV2Envelope blake3 key (encodeV2Envelope key kernel) :=
    get_of_sidecar hblake3 (Function.update_self _ _ _) (Function.update_self _ _ _)
  rw [hget, openV2Envelope_encode blake3 key key hfits, if_pos ⟨rfl, rfl, rfl⟩]

omit hblake3

/-! ## Whatever the sidecars hold -/

/-- The kernels put in a run, with their keys. -/
def puts : List DiskAction → List (CacheKey × CachedKernel)
  | [] => []
  | .put key kernel :: actions => (key, kernel) :: puts actions
  | .plant _ _ :: actions => puts actions

/-- Every blob is the envelope of one of the listed kernels. -/
def OnlyEnvelopes (d : DiskCache) (written : List (CacheKey × CachedKernel)) : Prop :=
  ∀ hash envelope, d.blobs hash = some envelope → ∃ entry ∈ written, envelope = encodeV2Envelope entry.1 entry.2

theorem OnlyEnvelopes.run {written : List (CacheKey × CachedKernel)}
    (h : OnlyEnvelopes d written) (actions : List DiskAction) :
    OnlyEnvelopes (run (DiskCache.step blake3) d actions) (written ++ puts actions) := by
  induction actions generalizing d written with
  | nil => rw [puts, List.append_nil]; exact h
  | cons a actions ih =>
    cases a with
    | plant path contents => exact ih h
    | put key kernel =>
      have hnext : OnlyEnvelopes (d.put blake3 key kernel) (written ++ [(key, kernel)]) := by
        intro hash envelope hblob
        change Function.update d.blobs (blake3 (encodeV2Envelope key kernel))
          (some (encodeV2Envelope key kernel)) hash = some envelope at hblob
        by_cases hhash : hash = blake3 (encodeV2Envelope key kernel)
        · rw [hhash, Function.update_self] at hblob
          exact ⟨(key, kernel), List.mem_append_right _ (List.mem_singleton_self _), (Option.some.inj hblob).symm⟩
        · rw [Function.update_of_ne hhash] at hblob
          obtain ⟨entry, hentry, henvelope⟩ := h hash envelope hblob
          exact ⟨entry, List.mem_append_left _ hentry, henvelope⟩
      have hrun := ih hnext
      rw [List.append_assoc] at hrun
      exact hrun

/-- A hit comes from a blob of the store. -/
theorem blob_of_get {key : CacheKey} (h : d.get blake3 key = .hit kernel) :
    ∃ hash envelope, d.blobs hash = some envelope ∧ openV2Envelope blake3 key envelope = .hit kernel := by
  unfold DiskCache.get at h
  split at h
  · cases h
  · split at h
    · cases h
    · split at h
      · cases h
      · split at h
        · cases h
        · rename_i envelope hblob
          exact ⟨_, envelope, hblob, h⟩

/-- **A kernel is returned only to the tenant, blueprint and sm version it was put for**, whatever
the sidecar files hold, and what was just put is returned. -/
theorem disk_cache_sound {blake3 : Bytes → Bytes} (hblake3 : ∀ x, (blake3 x).length = 32)
    (keyPrefixHex : String) (actions : List DiskAction)
    (hfits : ∀ entry ∈ puts actions, Storable entry.2) :
    (∀ key kernel, Storable kernel →
      ((run (DiskCache.step blake3) (.empty keyPrefixHex) actions).put blake3 key kernel).get
        blake3 key = .hit (CachedKernel.new blake3 key.blueprint kernel.ptx)) ∧
    ∀ key kernel,
      (run (DiskCache.step blake3) (.empty keyPrefixHex) actions).get blake3 key = .hit kernel →
      ∃ entry ∈ puts actions, entry.1.tenantId = key.tenantId ∧
        entry.1.blueprint = key.blueprint ∧ entry.1.smVersion = key.smVersion ∧
        kernel = CachedKernel.new blake3 key.blueprint entry.2.ptx := by
  refine ⟨fun key kernel hkernel => get_put hblake3 _ key hkernel, ?_⟩
  intro key kernel hget
  have honly : OnlyEnvelopes (run (DiskCache.step blake3) (.empty keyPrefixHex) actions)
      ([] ++ puts actions) :=
    OnlyEnvelopes.run (fun _ _ h => absurd h (by simp [DiskCache.empty])) actions
  obtain ⟨hash, envelope, hblob, hopen⟩ := blob_of_get hget
  obtain ⟨entry, hentry, rfl⟩ := honly hash envelope hblob
  refine ⟨entry, hentry, ?_⟩
  rw [openV2Envelope_encode blake3 key entry.1 (hfits entry hentry)] at hopen
  split at hopen
  · rename_i hsame
    exact ⟨hsame.1, hsame.2.1, hsame.2.2, (DiskAnswer.hit.inj hopen).symm⟩
  · cases hopen

/-! ## Two keys that differ in the emitter configuration -/

/-- A kernel for tenant 1, blueprint 7, sm 80; its recorded fingerprint is not the blueprint's. -/
def storedKernel : CachedKernel := ⟨9, ⟨"ret;", (8, 128)⟩, []⟩

theorem storedKernel_storable : Storable storedKernel := by
  show 52 + 4 < 2 ^ 64
  decide

/-- A hash of the right length: the last 32 bytes, padded. -/
def lastBytes (x : Bytes) : Bytes := (x.reverse ++ List.replicate 32 0).take 32

theorem length_lastBytes (x : Bytes) : (lastBytes x).length = 32 := by
  simp [lastBytes]

/-- The kernel is put, and its sidecar copied to the path of a key with another emitter configuration. -/
def copiedSidecar (blake3 : Bytes → Bytes) : List DiskAction :=
  [.put ⟨1, 7, 80, 0⟩ storedKernel,
   .plant (pathFor blake3 "00" ⟨1, 7, 80, 5⟩)
    (some (sidecarFor blake3 (encodeV2Envelope ⟨1, 7, 80, 0⟩ storedKernel)))]

/-- The copy is served under the other key. -/
theorem get_copied_sidecar (hblake3 : ∀ x, (blake3 x).length = 32) :
    (run (DiskCache.step blake3) (.empty "00") (copiedSidecar blake3)).get blake3 ⟨1, 7, 80, 5⟩ =
      .hit (CachedKernel.new blake3 7 storedKernel.ptx) := by
  have hopen := openV2Envelope_encode blake3 ⟨1, 7, 80, 5⟩ ⟨1, 7, 80, 0⟩ storedKernel_storable
  rw [if_pos ⟨rfl, rfl, rfl⟩] at hopen
  refine (get_of_sidecar hblake3 ?_ ?_).trans hopen
  · exact Function.update_self (pathFor blake3 "00" ⟨1, 7, 80, 5⟩) _ _
  · exact Function.update_self (blake3 (encodeV2Envelope ⟨1, 7, 80, 0⟩ storedKernel)) _ _

/-- The copy is served, and a kernel whose fingerprint is not the key's blueprint does not come back with its
own fingerprint. -/
theorem copied_sidecar_is_served :
    (run (DiskCache.step lastBytes) (.empty "00") (copiedSidecar lastBytes)).get lastBytes ⟨1, 7, 80, 5⟩ =
      .hit (CachedKernel.new lastBytes 7 storedKernel.ptx) ∧
    (((DiskCache.empty "00").put lastBytes ⟨1, 7, 80, 0⟩ storedKernel).get lastBytes
      ⟨1, 7, 80, 0⟩).kernel.map CachedKernel.fingerprint = some 7 ∧
    storedKernel.fingerprint = 9 := by
  refine ⟨get_copied_sidecar length_lastBytes, ?_, rfl⟩
  rw [get_put length_lastBytes _ _ storedKernel_storable]
  rfl

/-- After the copy, a kernel of another tenant is put and comes back, and what the copy serves was put for its
tenant, blueprint and sm version. -/
theorem disk_cache_sound_stored :
    ((run (DiskCache.step lastBytes) (.empty "00") (copiedSidecar lastBytes)).put lastBytes ⟨2, 7, 80, 0⟩
        storedKernel).get lastBytes ⟨2, 7, 80, 0⟩ = .hit (CachedKernel.new lastBytes 7 storedKernel.ptx) ∧
      ∃ entry ∈ puts (copiedSidecar lastBytes), entry.1.tenantId = 1 ∧ entry.1.blueprint = 7 ∧
        entry.1.smVersion = 80 ∧
        CachedKernel.new lastBytes 7 storedKernel.ptx = CachedKernel.new lastBytes 7 entry.2.ptx := by
  obtain ⟨hput, hget⟩ := disk_cache_sound length_lastBytes "00" (copiedSidecar lastBytes)
    (List.forall_mem_singleton.mpr storedKernel_storable)
  exact ⟨hput ⟨2, 7, 80, 0⟩ storedKernel storedKernel_storable,
    hget ⟨1, 7, 80, 5⟩ _ (get_copied_sidecar length_lastBytes)⟩

end TensorWasm.Jit
