import TensorWasm.Jit.KernelCache
import TensorWasm.Lib.Tally

/-!
# Map, queue and byte total of the kernel cache

The three parts of the cache are updated separately. `CacheOk` ties them together: the queue holds
exactly the keys of the map, and the total is the sum of the text lengths. Every way into the map
keeps it, and the eviction loops keep it while they pop. The one way out that does not is the refusal
of an entry by `get`, which leaves the key in the queue.
-/

namespace TensorWasm.Jit

open Lib KernelCache
open AList (lookup_isSome mem_erase mem_insert)

/-- The queue has the capacity of the cache and the keys of the map; the total is the sum of the
text lengths, as a 64-bit word. -/
structure CacheOk (c : KernelCache) : Prop where
  cap : c.lru.cap = c.config.capacity
  sync : ∀ k, k ∈ c.storage ↔ k ∈ c.lru.order
  total : c.totalBytes = weight entryBytes c.storage % 2 ^ 64

/-- `CacheOk`, with an entry in the map that is the most recent one in the queue. -/
structure Fresh (key : CacheKey) (kernel : CachedKernel) (c : KernelCache) : Prop extends
    CacheOk c where
  present : c.storage.lookup key = some kernel
  front : c.lru.order.head? = some key

/-- Every key of the map is in the queue, which has the capacity of the cache. Unlike `CacheOk` this
survives the refusal of an entry. -/
structure Queued (c : KernelCache) : Prop where
  cap : c.lru.cap = c.config.capacity
  queued : ∀ k ∈ c.storage, k ∈ c.lru.order

/-- `Queued`, with an entry in the map that is the most recent one in the queue. -/
structure Held (key : CacheKey) (kernel : CachedKernel) (c : KernelCache) : Prop extends
    Queued c where
  present : c.storage.lookup key = some kernel
  front : c.lru.order.head? = some key

variable {c : KernelCache}

theorem CacheOk.toQueued (h : CacheOk c) : Queued c :=
  ⟨h.cap, fun k hk => (h.sync k).mp hk⟩

variable {kernel : CachedKernel} {key : CacheKey}

theorem Fresh.toHeld (h : Fresh key kernel c) : Held key kernel c :=
  ⟨h.toCacheOk.toQueued, h.present, h.front⟩

theorem Queued.len_le (h : Queued c) : c.len ≤ c.lru.order.length :=
  (c.storage.keys_nodup.subperm h.queued).length_le

theorem CacheOk.len_eq (h : CacheOk c) : c.len = c.lru.order.length :=
  ((List.perm_ext_iff_of_nodup c.storage.keys_nodup c.lru.nodup).mpr h.sync).length_eq

theorem CacheOk.len_le (h : CacheOk c) : c.len ≤ c.config.capacity := by
  rw [h.len_eq, ← h.cap]
  exact c.lru.bounded

theorem fetchAdd_mod (a b : Nat) : fetchAdd (a % 2 ^ 64) b = (a + b) % 2 ^ 64 := by
  unfold fetchAdd
  omega

theorem fetchSub_mod (a b : Nat) : fetchSub ((a + b) % 2 ^ 64) b = a % 2 ^ 64 := by
  unfold fetchSub
  omega

/-! ## Evicting -/

/-- Evicting a key erases it from the map, whether it was there or not. -/
theorem evictKey_spec (c : KernelCache) (key : CacheKey) :
    (c.evictKey key).storage = c.storage.erase key ∧ (c.evictKey key).lru = c.lru ∧
      (c.evictKey key).config = c.config ∧
      (c.totalBytes = weight entryBytes c.storage % 2 ^ 64 →
        (c.evictKey key).totalBytes = weight entryBytes (c.evictKey key).storage % 2 ^ 64) := by
  unfold evictKey
  cases h : c.storage.lookup key with
  | none => exact ⟨(erase_of_lookup_none h).symm, rfl, rfl, id⟩
  | some removed =>
    refine ⟨rfl, rfl, rfl, ?_⟩
    intro htotal
    have hweight := weight_erase entryBytes h
    show fetchSub c.totalBytes (entryBytes removed) = _
    rw [htotal, hweight, Nat.add_comm]
    exact fetchSub_mod _ _

variable {victim : CacheKey}

theorem CacheOk.pop (h : CacheOk c) (hv : c.lru.lruKey = some victim) :
    CacheOk ({ c with lru := c.lru.popLru }.evictKey victim) := by
  obtain ⟨hstorage, hlru, hconfig, htotal⟩ := evictKey_spec { c with lru := c.lru.popLru } victim
  refine ⟨?_, ?_, htotal h.total⟩
  · rw [hlru, hconfig]
    exact h.cap
  · intro k
    rw [hstorage, hlru, mem_erase, Lru.mem_popLru hv, and_comm]
    exact and_congr (h.sync k) Iff.rfl

/-- With more than one entry the front of the queue is not the key that is popped. -/
theorem Held.pop (h : Held key kernel c) (hlen : 1 < c.len) (hv : c.lru.lruKey = some victim) :
    Held key kernel ({ c with lru := c.lru.popLru }.evictKey victim) := by
  obtain ⟨hstorage, hlru, hconfig, -⟩ := evictKey_spec { c with lru := c.lru.popLru } victim
  have horder := Lru.order_eq_of_lruKey hv
  have hfront : c.lru.popLru.order.head? = some key := by
    have hfront := h.front
    have hlength := Nat.lt_of_lt_of_le hlen h.toQueued.len_le
    rw [horder] at hfront hlength
    cases hpop : c.lru.popLru.order with
    | nil =>
      rw [hpop] at hlength
      exact absurd hlength (by simp)
    | cons x xs =>
      rw [hpop] at hfront
      exact hfront
  refine ⟨⟨?_, ?_⟩, ?_, hlru ▸ hfront⟩
  · rw [hlru, hconfig]
    exact h.cap
  · intro k hk
    rw [hstorage, mem_erase] at hk
    rw [hlru, Lru.mem_popLru hv]
    exact ⟨h.queued k hk.2, hk.1⟩
  · rw [hstorage, AList.lookup_erase_ne]
    · exact h.present
    · rintro rfl
      exact absurd rfl ((Lru.mem_popLru hv).mp (List.mem_of_head? hfront)).2

theorem Fresh.pop (h : Fresh key kernel c) (hlen : 1 < c.len) (hv : c.lru.lruKey = some victim) :
    Fresh key kernel ({ c with lru := c.lru.popLru }.evictKey victim) := by
  have hheld := h.toHeld.pop hlen hv
  exact ⟨h.toCacheOk.pop hv, hheld.present, hheld.front⟩

variable {full : KernelCache → Bool}

/-- What every pop of the loop keeps, the loop keeps. -/
theorem evictWhile_keeps {P : KernelCache → Prop}
    (hpop : ∀ c victim, P c → full c → c.lru.lruKey = some victim → P ({ c with lru := c.lru.popLru }.evictKey victim))
    (passes : Nat) (h : P c) : P (evictWhile full passes c) := by
  induction passes generalizing c with
  | zero => exact h
  | succ passes ih =>
    unfold KernelCache.evictWhile
    by_cases hover : full c
    · rw [if_pos hover]
      cases hv : c.lru.lruKey with
      | none => exact h
      | some victim => exact ih (hpop c victim h hover hv)
    · rw [if_neg hover]
      exact h

/-- With a pass for every key the loop ends with its condition false or with an empty queue. -/
theorem evictWhile_done {passes : Nat} (hpasses : c.lru.order.length ≤ passes)
    (hfull : full (evictWhile full passes c)) : (evictWhile full passes c).lru.order = [] := by
  induction passes generalizing c with
  | zero => exact List.length_eq_zero_iff.mp (Nat.le_zero.mp hpasses)
  | succ passes ih =>
    unfold KernelCache.evictWhile at hfull ⊢
    by_cases hover : full c
    · rw [if_pos hover] at hfull ⊢
      cases hv : c.lru.lruKey with
      | none => exact List.getLast?_eq_none_iff.mp hv
      | some victim =>
        rw [hv] at hfull
        obtain ⟨-, hlru, -, -⟩ := evictKey_spec { c with lru := c.lru.popLru } victim
        refine ih ?_ hfull
        rw [hlru]
        show c.lru.order.dropLast.length ≤ passes
        rw [List.length_dropLast]
        omega
    · rw [if_neg hover] at hfull
      exact absurd hfull hover

theorem Held.evictLoop (hfull : ∀ c, Queued c → full c → 1 < c.len) (h : Held key kernel c) :
    Held key kernel (c.evictLoop full) :=
  evictWhile_keeps (fun c _ hc hover hv => hc.pop (hfull c hc.toQueued hover) hv) _ h

/-- The loop ends with its condition false, and does not evict the front of the queue. -/
theorem Fresh.evictLoop (hfull : ∀ c, Queued c → full c → 1 < c.len) (h : Fresh key kernel c) :
    Fresh key kernel (c.evictLoop full) ∧ ¬ full (c.evictLoop full) ∧ (c.evictLoop full).config = c.config := by
  have hkept : Fresh key kernel (c.evictLoop full) ∧ (c.evictLoop full).config = c.config := by
    refine evictWhile_keeps (P := fun c' => Fresh key kernel c' ∧ c'.config = c.config) ?_ _ ⟨h, rfl⟩
    intro c' victim hc' hover hv
    obtain ⟨-, -, hconfig, -⟩ := evictKey_spec { c' with lru := c'.lru.popLru } victim
    exact ⟨hc'.1.pop (hfull c' hc'.1.toCacheOk.toQueued hover) hv, hconfig.trans hc'.2⟩
  refine ⟨hkept.1, ?_, hkept.2⟩
  intro hover
  have hfront := hkept.1.front
  rw [KernelCache.evictLoop, evictWhile_done (Nat.le_refl _) hover] at hfront
  cases hfront

/-! ## Inserting -/

theorem enter_total (h : CacheOk c) (key : CacheKey) (kernel : CachedKernel) :
    accountInsert c.totalBytes kernel (c.storage.lookup key) =
      weight entryBytes (c.storage.insert key kernel) % 2 ^ 64 := by
  rw [weight_insert, h.total]
  cases hold : c.storage.lookup key with
  | none =>
    rw [erase_of_lookup_none hold, Nat.add_comm]
    exact fetchAdd_mod _ _
  | some old =>
    rw [weight_erase entryBytes hold]
    show fetchSub (fetchAdd _ (entryBytes kernel)) (entryBytes old) = _
    rw [fetchAdd_mod, Nat.add_assoc, Nat.add_comm (entryBytes old), Nat.add_comm (weight _ _)]
    exact fetchSub_mod _ _

/-- Dropping the key the queue has reported leaves a kernel at the front in place. -/
theorem Held.dropEvicted {evicted : Option CacheKey} (hcap : c.lru.cap = c.config.capacity)
    (hpresent : c.storage.lookup key = some kernel) (hfront : c.lru.order.head? = some key)
    (hqueued : ∀ x ∈ c.storage, x ∈ c.lru.order ∨ evicted = some x) :
    Held key kernel (c.dropEvicted key evicted) := by
  cases evicted with
  | none => exact ⟨⟨hcap, fun x hx => (hqueued x hx).resolve_right (by simp)⟩, hpresent, hfront⟩
  | some evictedKey =>
    unfold KernelCache.dropEvicted
    dsimp only
    split
    · rename_i hne
      obtain ⟨hstorage, hlru, hconfig, -⟩ := evictKey_spec c evictedKey
      refine ⟨⟨?_, ?_⟩, ?_, hlru ▸ hfront⟩
      · rw [hlru, hconfig]
        exact hcap
      · intro x hx
        rw [hstorage, mem_erase] at hx
        rw [hlru]
        exact (hqueued x hx.2).resolve_right fun heq => hx.1 (Option.some.inj heq).symm
      · rw [hstorage, AList.lookup_erase_ne fun heq => hne heq.symm]
        exact hpresent
    · rename_i heq
      obtain rfl : evictedKey = key := Decidable.not_not.mp heq
      refine ⟨⟨hcap, ?_⟩, hpresent, hfront⟩
      intro x hx
      rcases hqueued x hx with hmem | hevicted
      · exact hmem
      · cases hevicted
        exact List.mem_of_head? hfront

/-- A queue that has just reported a key is in step with the map once that key is dropped. -/
theorem dropEvicted_spec {evicted : Option CacheKey} (hcap : c.lru.cap = c.config.capacity)
    (htotal : c.totalBytes = weight entryBytes c.storage % 2 ^ 64) (hpresent : c.storage.lookup key = some kernel)
    (hfront : c.lru.order.head? = some key)
    (hsync : ∀ x, x ∈ c.lru.order ↔ x = key ∨ x ∈ c.storage ∧ evicted ≠ some x) :
    Fresh key kernel (c.dropEvicted key evicted) ∧ (c.dropEvicted key evicted).config = c.config := by
  have hkey : key ∈ c.storage := lookup_isSome.mp (by rw [hpresent]; rfl)
  have hheld : Held key kernel (c.dropEvicted key evicted) := by
    refine .dropEvicted hcap hpresent hfront ?_
    intro x hx
    by_cases hevicted : evicted = some x
    · exact .inr hevicted
    · exact .inl ((hsync x).mpr (.inr ⟨hx, hevicted⟩))
  -- every key of the queue is in the map, less the key that is dropped
  have hstored : ∀ x ∈ c.lru.order, x ∈ c.storage := by
    intro x hx
    rcases (hsync x).mp hx with rfl | hx
    · exact hkey
    · exact hx.1
  cases evicted with
  | none =>
    exact ⟨⟨⟨hcap, fun x => ⟨hheld.queued x, hstored x⟩, htotal⟩, hpresent, hfront⟩, rfl⟩
  | some evictedKey =>
    unfold dropEvicted at hheld ⊢
    dsimp only at hheld ⊢
    split
    · rename_i hne
      rw [if_pos hne] at hheld
      obtain ⟨hstorage, hlru, hconfig, hweight⟩ := evictKey_spec c evictedKey
      refine ⟨⟨⟨hheld.cap, ?_, hweight htotal⟩, hheld.present, hheld.front⟩, hconfig⟩
      intro x
      refine ⟨hheld.queued x, ?_⟩
      intro hx
      rw [hlru] at hx
      rw [hstorage, mem_erase]
      refine ⟨?_, hstored x hx⟩
      rintro rfl
      rcases (hsync x).mp hx with heq | hx
      · exact hne heq
      · exact hx.2 rfl
    · rename_i heq
      rw [if_neg heq] at hheld
      exact ⟨⟨⟨hcap, fun x => ⟨hheld.queued x, hstored x⟩, htotal⟩, hpresent, hfront⟩, rfl⟩

theorem Queued.enter (h : Queued c) (key : CacheKey) (kernel : CachedKernel) :
    Held key kernel (c.enter key kernel) := by
  refine .dropEvicted ((c.lru.push_cap key).trans h.cap) (AList.lookup_insert _)
    (c.lru.push_head key) ?_
  intro x hx
  show x ∈ (c.lru.push key).1.order ∨ _
  rw [Lru.mem_push]
  by_cases hevicted : (c.lru.push key).2 = some x
  · exact .inr hevicted
  · rcases (mem_insert _).mp hx with rfl | hx
    · exact .inl (.inl rfl)
    · exact .inl (.inr ⟨h.queued x hx, hevicted⟩)

theorem enter_spec (h : CacheOk c) (key : CacheKey) (kernel : CachedKernel) :
    Fresh key kernel (c.enter key kernel) ∧ (c.enter key kernel).config = c.config := by
  refine dropEvicted_spec ((c.lru.push_cap key).trans h.cap) (enter_total h key kernel)
    (AList.lookup_insert _) (c.lru.push_head key) ?_
  intro x
  rw [Lru.mem_push, mem_insert, ← h.sync]
  constructor
  · rintro (rfl | hx)
    · exact .inl rfl
    · exact .inr ⟨.inr hx.1, hx.2⟩
  · rintro (rfl | ⟨rfl | hx, hev⟩)
    · exact .inl rfl
    · exact .inl rfl
    · exact .inr ⟨hx, hev⟩

/-- The byte cap, or a single entry. -/
def WithinBytes (c : KernelCache) : Prop :=
  ∀ cap, c.config.maxTotalBytes = some cap → c.totalBytes ≤ cap ∨ c.len = 1

theorem Fresh.one_le_len (h : Fresh key kernel c) : 1 ≤ c.len := by
  have hmem : key ∈ c.storage.keys := lookup_isSome.mp (by rw [h.present]; rfl)
  exact List.length_pos_of_mem hmem

theorem one_lt_len_of_overByteCap {cap : Nat} (hover : overByteCap cap c) : 1 < c.len := by
  unfold overByteCap at hover
  rw [Bool.and_eq_true, decide_eq_true_eq, decide_eq_true_eq] at hover
  exact hover.2

theorem Queued.one_lt_len_of_overCapacity (h : Queued c) (hover : overCapacity c) : 1 < c.len := by
  unfold overCapacity at hover
  rw [decide_eq_true_eq] at hover
  have hpos := c.lru.pos
  rw [h.cap] at hpos
  omega

theorem Held.enforceByteCap (h : Held key kernel c) : Held key kernel c.enforceByteCap := by
  unfold KernelCache.enforceByteCap
  cases c.config.maxTotalBytes with
  | none => exact h
  | some cap =>
    dsimp only
    split
    · exact h.evictLoop fun c _ hover => one_lt_len_of_overByteCap hover
    · exact h

theorem Fresh.enforceByteCap (h : Fresh key kernel c) :
    Fresh key kernel c.enforceByteCap ∧ WithinBytes c.enforceByteCap ∧ c.enforceByteCap.config = c.config := by
  unfold KernelCache.enforceByteCap
  cases hmax : c.config.maxTotalBytes with
  | none =>
    refine ⟨h, ?_, rfl⟩
    intro cap hcap
    exact absurd (hmax.symm.trans hcap) (by simp)
  | some cap =>
    dsimp only
    split
    · obtain ⟨hfresh, hdone, hconfig⟩ :=
        h.evictLoop fun c _ hover => one_lt_len_of_overByteCap hover
      refine ⟨hfresh, ?_, hconfig⟩
      intro cap' hcap'
      rw [hconfig, hmax] at hcap'
      cases hcap'
      have hone := hfresh.one_le_len
      unfold overByteCap at hdone
      rw [Bool.and_eq_true, decide_eq_true_eq, decide_eq_true_eq, not_and_or] at hdone
      rcases hdone with hfits | hfew
      · exact .inl (Nat.le_of_not_lt hfits)
      · exact .inr (Nat.le_antisymm (Nat.le_of_not_lt hfew) hone)
    · rename_i hfits
      refine ⟨h, ?_, rfl⟩
      intro cap' hcap'
      obtain rfl := Option.mem_unique hmax hcap'
      exact .inl (Nat.le_of_not_lt hfits)

variable {blake3 : Bytes → Bytes}

theorem put_refused (c : KernelCache) (key : CacheKey) (hkernel : ¬ kernel.verifyIntegrity blake3) :
    c.put blake3 key kernel = c :=
  if_pos (by simpa using hkernel)

theorem put_eq (c : KernelCache) (key : CacheKey) (hkernel : kernel.verifyIntegrity blake3) :
    c.put blake3 key kernel =
      (if (c.enter key kernel).overCapacity then (c.enter key kernel).evictLoop overCapacity
        else c.enter key kernel).enforceByteCap := by
  unfold KernelCache.put
  exact if_neg (by rw [hkernel]; simp)

theorem Queued.put (h : Queued c) (key : CacheKey) (hkernel : kernel.verifyIntegrity blake3) :
    Held key kernel (c.put blake3 key kernel) := by
  rw [put_eq c key hkernel]
  apply Held.enforceByteCap
  split
  · exact (h.enter key kernel).evictLoop fun c hc hover => hc.one_lt_len_of_overCapacity hover
  · exact h.enter key kernel

theorem put_spec (h : CacheOk c) (key : CacheKey) (hkernel : kernel.verifyIntegrity blake3) :
    Fresh key kernel (c.put blake3 key kernel) ∧ WithinBytes (c.put blake3 key kernel) := by
  obtain ⟨henter, -⟩ := enter_spec h key kernel
  rw [put_eq c key hkernel]
  split
  · have hloop := (henter.evictLoop fun c hc hover => hc.one_lt_len_of_overCapacity hover).1
    obtain ⟨hfresh, hbytes, -⟩ := hloop.enforceByteCap
    exact ⟨hfresh, hbytes⟩
  · obtain ⟨hfresh, hbytes, -⟩ := henter.enforceByteCap
    exact ⟨hfresh, hbytes⟩

/-! ## Runs -/

/-- The invariant of the cache: map and queue have the same keys, the capacity and the byte cap are
respected, the total is right, and a kernel that is put is there afterwards. -/
structure CacheInvariant (blake3 : Bytes → Bytes) (c : KernelCache) : Prop extends
    CacheOk c where
  count : c.len ≤ c.config.capacity
  bytes : WithinBytes c
  present : ∀ key kernel, kernel.verifyIntegrity blake3 →
    (c.put blake3 key kernel).storage.lookup key = some kernel

/-- A `get` that finds an entry and refuses it. -/
def Rejects (blake3 : Bytes → Bytes) (c : KernelCache) : CacheAction → Prop
  | .get key _ => ∃ kernel, c.storage.lookup key = some kernel ∧ rejected blake3 c.config.verifyOnGet kernel
  | _ => False

theorem CacheOk.invariant (h : CacheOk c) (hbytes : WithinBytes c) : CacheInvariant blake3 c :=
  ⟨h, h.len_le, hbytes, fun key _ hkernel => (put_spec h key hkernel).1.present⟩

theorem CacheOk.promote (h : CacheOk c) (key : CacheKey) : CacheOk { c with lru := c.lru.promote key } :=
  ⟨(c.lru.promote_cap key).trans h.cap, fun k => (h.sync k).trans Lru.mem_promote.symm, h.total⟩

/-- Overwriting an entry by one of the same size. -/
theorem CacheInvariant.tamper (h : CacheInvariant blake3 c) (key : CacheKey) (kernel : CachedKernel) :
    CacheInvariant blake3 (c.tamper key kernel) := by
  unfold KernelCache.tamper
  cases hold : c.storage.lookup key with
  | none => exact h
  | some old =>
    dsimp only
    split
    · rename_i hsize
      have hmem : key ∈ c.storage := lookup_isSome.mp (by rw [hold]; rfl)
      have hok : CacheOk { c with storage := c.storage.insert key kernel } := by
        refine ⟨h.cap, ?_, ?_⟩
        · intro k
          rw [← h.sync, mem_insert]
          constructor
          · rintro (rfl | hk)
            · exact hmem
            · exact hk
          · exact .inr
        · rw [weight_insert, hsize, ← weight_erase entryBytes hold]
          exact h.total
      refine hok.invariant ?_
      intro cap hcap
      rw [hok.len_eq]
      exact (h.bytes cap hcap).imp id fun hlen => h.len_eq.symm.trans hlen
    · exact h

/-- Two caches that differ in their hit, miss and rejection counters only. -/
structure SameEntries (c c' : KernelCache) : Prop where
  storage : c.storage = c'.storage
  lru : c.lru = c'.lru
  config : c.config = c'.config
  totalBytes : c.totalBytes = c'.totalBytes

theorem CacheOk.congr {c c' : KernelCache} (h : CacheOk c') (heq : SameEntries c c') : CacheOk c := by
  refine ⟨?_, ?_, ?_⟩
  · rw [heq.lru, heq.config]
    exact h.cap
  · rw [heq.lru, heq.storage]
    exact h.sync
  · rw [heq.totalBytes, heq.storage]
    exact h.total

theorem WithinBytes.congr {c c' : KernelCache} (h : WithinBytes c') (heq : SameEntries c c') : WithinBytes c := by
  intro cap hcap
  rw [heq.config] at hcap
  rw [heq.totalBytes, KernelCache.len, heq.storage]
  exact h cap hcap

theorem SameEntries.evictKey {c c' : KernelCache} (h : SameEntries c c') (key : CacheKey) :
    SameEntries (c.evictKey key) (c'.evictKey key) := by
  unfold KernelCache.evictKey
  rw [h.storage]
  cases c'.storage.lookup key with
  | none => exact h
  | some removed => exact ⟨rfl, h.lru, h.config, congrArg (fetchSub · _) h.totalBytes⟩

theorem SameEntries.countSkip (c : KernelCache) : SameEntries c.countSkip c := by
  unfold KernelCache.countSkip
  split <;> exact ⟨rfl, rfl, rfl, rfl⟩

/-- What `get` does to the entries: the key is promoted, and then nothing more happens, a refused
entry is evicted, or an entry found on disk is inserted. -/
theorem get_cases (blake3 : Bytes → Bytes) (c : KernelCache) (key : CacheKey) (disk : Option CachedKernel) :
    (¬ Rejects blake3 c (.get key disk) ∧
      SameEntries (c.get blake3 key disk).1 { c with lru := c.lru.promote key }) ∨
    (Rejects blake3 c (.get key disk) ∧
      SameEntries (c.get blake3 key disk).1 ({ c with lru := c.lru.promote key }.evictKey key)) ∨
    (¬ Rejects blake3 c (.get key disk) ∧ ∃ kernel, SameEntries (c.get blake3 key disk).1
      ({ c with lru := c.lru.promote key }.enter key kernel).enforceByteCap) := by
  unfold KernelCache.get Rejects
  dsimp only
  cases hlookup : c.storage.lookup key with
  | some kernel =>
    dsimp only
    have hskip := SameEntries.countSkip { c with lru := c.lru.promote key }
    split
    · rename_i hrejected
      rw [hskip.config] at hrejected
      obtain ⟨hstorage, hlru, hconfig, htotal⟩ := hskip.evictKey key
      exact .inr (.inl ⟨⟨kernel, rfl, hrejected⟩, hstorage, hlru, hconfig, htotal⟩)
    · rename_i hkept
      rw [hskip.config] at hkept
      refine .inl ⟨?_, hskip.storage, hskip.lru, hskip.config, hskip.totalBytes⟩
      rintro ⟨kernel', hsame, hrejected⟩
      cases hsame
      exact hkept hrejected
  | none =>
    have hno : ¬ ∃ kernel, (none : Option CachedKernel) = some kernel ∧
        rejected blake3 c.config.verifyOnGet kernel := by
      rintro ⟨kernel, hsome, -⟩
      cases hsome
    cases disk with
    | some kernel => exact .inr (.inr ⟨hno, kernel, rfl, rfl, rfl, rfl⟩)
    | none => exact .inl ⟨hno, rfl, rfl, rfl, rfl⟩

/-- **A step keeps the invariant exactly when it is not a `get` that refuses an entry.** -/
theorem CacheInvariant.step_iff (c : KernelCache) (a : CacheAction) (h : CacheInvariant blake3 c) :
    CacheInvariant blake3 (c.step blake3 a) ↔ ¬ Rejects blake3 c a := by
  cases a with
  | put key kernel =>
    refine ⟨fun _ hfalse => hfalse, fun _ => ?_⟩
    by_cases hkernel : kernel.verifyIntegrity blake3
    · obtain ⟨hfresh, hbytes⟩ := put_spec h.toCacheOk key hkernel
      exact hfresh.toCacheOk.invariant hbytes
    · show CacheInvariant blake3 (c.put blake3 key kernel)
      rw [put_refused c key hkernel]
      exact h
  | tamper key kernel => exact ⟨fun _ hfalse => hfalse, fun _ => h.tamper key kernel⟩
  | get key disk =>
    have hpromoted := h.toCacheOk.promote key
    rcases get_cases blake3 c key disk with ⟨hno, hsame⟩ | ⟨hyes, hsame⟩ | ⟨hno, kernel, hsame⟩
    · have hbytes : WithinBytes { c with lru := c.lru.promote key } := h.bytes
      exact iff_of_true (CacheOk.invariant (hpromoted.congr hsame) (hbytes.congr hsame)) hno
    · -- the key is gone from the map and still in the queue
      refine iff_of_false ?_ (fun hno => hno hyes)
      intro hafter
      obtain ⟨kernel, hlookup, -⟩ := hyes
      obtain ⟨hstorage, hlru, -, -⟩ := evictKey_spec { c with lru := c.lru.promote key } key
      have hsync := hafter.sync key
      rw [show c.step blake3 (.get key disk) = (c.get blake3 key disk).1 from rfl, hsame.storage,
        hsame.lru, hstorage, hlru, mem_erase] at hsync
      have hmem : key ∈ c.storage := lookup_isSome.mp (by rw [hlookup]; rfl)
      exact (hsync.mpr (Lru.mem_promote.mpr ((h.sync key).mp hmem))).1 rfl
    · obtain ⟨hfresh, hbytes, -⟩ := (enter_spec hpromoted key kernel).1.enforceByteCap
      exact iff_of_true (CacheOk.invariant (hfresh.toCacheOk.congr hsame) (hbytes.congr hsame)) hno

theorem CacheInvariant.init (blake3 : Bytes → Bytes) (config : KernelCacheConfig) :
    CacheInvariant blake3 (withConfig config) := by
  refine CacheOk.invariant ⟨rfl, ?_, rfl⟩ fun _ _ => .inl (Nat.zero_le _)
  intro k
  exact iff_of_false (AList.notMem_empty k) (List.not_mem_nil)

/-- **Map, queue and total stay together throughout a run exactly when no `get` of it refuses an
entry.** -/
theorem cache_invariant_iff (blake3 : Bytes → Bytes) (config : KernelCacheConfig)
    (actions : List CacheAction) :
    Throughout (KernelCache.step blake3) (CacheInvariant blake3) (withConfig config) actions ↔
      Along (KernelCache.step blake3) (fun c a => ¬ Rejects blake3 c a) (withConfig config)
        actions :=
  throughout_iff_along CacheInvariant.step_iff (CacheInvariant.init blake3 config) actions

/-- After an entry is put, corrupted in memory and refused by `get`, the map is empty and the queue
still holds its key. -/
theorem refused_key_stays_queued :
    ∃ (blake3 : Bytes → Bytes) (config : KernelCacheConfig) (actions : List CacheAction)
      (key : CacheKey), (run (KernelCache.step blake3) (withConfig config) actions).storage.keys = [] ∧
      (run (KernelCache.step blake3) (withConfig config) actions).lru.order = [key] :=
  ⟨fun bytes => bytes, ⟨4, none, true⟩,
    [.put ⟨1, 7, 80, 0⟩ ⟨7, ⟨"a", (1, 1)⟩, [97]⟩, .tamper ⟨1, 7, 80, 0⟩ ⟨7, ⟨"b", (1, 1)⟩, [97]⟩,
     .get ⟨1, 7, 80, 0⟩ none], ⟨1, 7, 80, 0⟩, by decide, by decide⟩

end TensorWasm.Jit
