import TensorWasm.Lib.Outcome
import TensorWasm.Mem.WasmMemory
import TensorWasm.Proof.PoolSafety

/-!
# Linear memories do not see each other

What a guest sees of a memory is its visible bytes and its capacity (`VisibleMemory`). Creating, writing,
growing and dropping memories act on these views as if every memory had storage of its own that starts
as zeros, although pooled memories share a slab whose regions are recycled with the old bytes in them.

The invariant `MemoryOk` links the memories to the pool: each pooled memory holds its own region, that
region is one the pool has handed out, and the visible size stays inside it. Nothing is said about bytes
behind the visible size: `grow_to` clears them when it exposes them.
-/

namespace TensorWasm.Mem

open Lib List
open PoolState (allocate run settle)
open Separate (bytes_apart)
open LinearMemory (newOn region)
open UInt64 (le_iff_toNat_le le_trans not_lt)

/-! ## Uninterrupted calls are runs of the pool -/

/-- The call at the head of the list makes its next access. -/
theorem PoolState.step_advance_head (p : Pool) (c : Call) (rest : List Call) (owned : List Region)
    (handedOut released : Nat) :
    (⟨p, c :: rest, owned, handedOut, released⟩ : PoolState).step (.advance 0 false) =
      (⟨p, rest, owned, handedOut, released⟩ : PoolState).settle rest (c.step p false) := by
  unfold PoolState.step
  simp only [List.getElem?_cons_zero, eraseIdx_cons_zero]
  cases c.step p false with
  | mk p progress => cases progress <;> rfl

variable (s : PoolState)

/-- `allocate` makes at most nine accesses when nobody interferes. -/
theorem PoolState.allocate_eq_run (req : Request) : ∃ schedule, (s.allocate req).1 = s.run schedule := by
  have henter : s.step (.allocate req) =
      ⟨s.pool, .allocate req .enter :: s.calls, s.owned, s.handedOut, s.released⟩ := rfl
  cases hreq : checkRequest req with
  | error e =>
    refine ⟨[.allocate req, .advance 0 false], ?_⟩
    simp [run, henter, step_advance_head, allocate, Pool.allocate, Call.step, allocateStep, hreq, settle]
  | ok u =>
    cases hplace : place s.pool.len req s.pool.bump with
    | error e =>
      refine ⟨[.allocate req, .advance 0 false, .advance 0 false], ?_⟩
      simp [run, henter, step_advance_head, allocate, Pool.allocate, Call.step, allocateStep,
        hreq, settle, hplace]
    | ok placed =>
      refine ⟨.allocate req :: List.replicate 9 (.advance 0 false), ?_⟩
      simp only [run, run_cons, run_nil, List.replicate, henter, step_advance_head,
        allocate, Pool.allocate, Call.step, allocateStep, hreq, settle, hplace,
        Bool.not_false, and_self, if_true, Pool.zero]
      -- the last access raises the mark or finds it high enough
      by_cases hmark : s.pool.carvedHighWater < placed.1 + req.size.toNat
      · simp only [hmark, if_true]
      · simp only [hmark, if_false]

variable {r : Region}

theorem PoolState.release_eq_run (hr : r ∈ s.owned) : ∃ schedule, s.release r = s.run schedule := by
  refine ⟨[.release (s.owned.idxOf r), .advance 0 false, .advance 0 false], ?_⟩
  have hget : s.owned[s.owned.idxOf r]? = some r := List.getElem?_idxOf hr
  have hstart : s.step (.release (s.owned.idxOf r)) =
      ⟨s.pool, .release r .loadLive :: s.calls, s.owned.eraseIdx (s.owned.idxOf r), s.handedOut, s.released⟩ := by
    simp only [PoolState.step, hget]
  simp [run, hstart, step_advance_head, Call.step, releaseStep, settle, PoolState.release, Pool.release]

/-- What a refused `allocate` leaves, and what a successful one hands out. -/
theorem PoolState.allocate_cases (req : Request) :
    (∃ e, s.allocate req = (s, .error e)) ∨
      ∃ offset s', s.allocate req = (s', .ok ⟨offset, req⟩) ∧
        s'.owned = (⟨offset, req⟩ : Region) :: s.owned ∧
        (∀ i, ¬ (offset ≤ i ∧ i < offset + req.size.toNat) → s'.pool.bytes i = s.pool.bytes i) ∧
        ∀ i, s'.pool.bytes (offset + i) =
          if i < req.size.toNat ∧ offset + i < s.pool.carvedHighWater then 0
          else s.pool.bytes (offset + i) := by
  cases hreq : checkRequest req with
  | error e =>
    left
    exact ⟨e, by simp [allocate, Pool.allocate, hreq]⟩
  | ok u =>
    cases hplace : place s.pool.len req s.pool.bump with
    | error e =>
      left
      exact ⟨e, by simp [allocate, Pool.allocate, hreq, hplace]⟩
    | ok placed =>
      right
      refine ⟨placed.1, _, by simp only [allocate, Pool.allocate, hreq, hplace]; rfl, rfl, ?_, ?_⟩
      · intro i hi
        refine if_neg fun hin => hi ⟨hin.1, ?_⟩
        exact Nat.lt_of_lt_of_le hin.2 (Nat.min_le_left _ _)
      · intro i
        refine ite_congr (propext ?_) (fun _ => rfl) fun _ => rfl
        constructor
        · intro hin
          have hbelow := Nat.lt_min.mp hin.2
          exact ⟨by omega, hbelow.2⟩
        · intro hin
          exact ⟨Nat.le_add_right _ _, Nat.lt_min.mpr ⟨by omega, hin.2⟩⟩

namespace PoolOk

variable {s : PoolState} (h : PoolOk s)

include h

theorem run_from (schedule : List PoolAction) : PoolOk (s.run schedule) :=
  run_keeps (fun _ a h => h.step a) h schedule

theorem allocate (req : Request) : PoolOk (s.allocate req).1 := by
  obtain ⟨schedule, hrun⟩ := s.allocate_eq_run req
  rw [hrun]
  exact h.run_from schedule

theorem release (hr : r ∈ s.owned) : PoolOk (s.release r) := by
  obtain ⟨schedule, hrun⟩ := s.release_eq_run hr
  rw [hrun]
  exact h.run_from schedule

theorem owned_pairwise : s.owned.Pairwise fun r r' => Separate r.block r'.block := by
  have hsep := pairwise_map.mp h.carved.separate
  exact hsep.sublist (sublist_append_left _ _)

theorem separate_owned {r' : Region} (hr : r ∈ s.owned) (hr' : r' ∈ s.owned)
    (hne : r ≠ r') : Separate r.block r'.block := by
  have : Std.Symm fun r r' : Region => Separate r.block r'.block := ⟨fun _ _ => Separate.symm⟩
  exact h.owned_pairwise.forall hr hr' hne

theorem size_pos (hr : r ∈ s.owned) : 0 < r.size :=
  h.carved.nonempty _ (mem_map_of_mem (mem_append_left _ hr))

/-- Owned regions are not empty, so separate ones differ. -/
theorem owned_nodup : s.owned.Nodup := by
  refine h.owned_pairwise.imp_of_mem ?_
  intro r r' hr hr' hsep heq
  subst heq
  have hpos := h.size_pos hr
  have hapart := bytes_apart hsep hpos
  exact hapart ⟨Nat.le_refl _, Nat.add_lt_add_left hpos _⟩

/-- Anything may be stored in an owned region. -/
theorem store (hr : r ∈ s.owned) {bytes : Nat → UInt8}
    (hbytes : ∀ i, ¬ (r.offset ≤ i ∧ i < r.stop) → bytes i = s.pool.bytes i) :
    PoolOk { s with pool := { s.pool with bytes := bytes } } := by
  refine ⟨h.capacity, h.cursor, h.carved, h.aligned, h.counter, h.handed, ?_, h.covered, ?_⟩
  · intro i hi
    have hcovered := h.covered r hr
    refine (hbytes i ?_).trans (h.fresh i hi)
    intro hin
    exact Nat.lt_irrefl _ (Nat.lt_of_lt_of_le hin.2 (hcovered.trans hi))
  · intro c hc
    refine (h.calls c hc).stable rfl (Nat.le_refl _) ?_
    intro r' hr' i hi
    exact hbytes _ (bytes_apart (h.separate_call hr hc hr') hi)

/-- A region is zero-filled when it is handed out. -/
theorem allocated_zero {req : Request} {offset : Nat} {s' : PoolState}
    (hbytes : ∀ i, s'.pool.bytes (offset + i) =
      if i < req.size.toNat ∧ offset + i < s.pool.carvedHighWater then 0
      else s.pool.bytes (offset + i)) {i : Nat} (hi : i < req.size.toNat) :
    s'.pool.bytes (offset + i) = 0 := by
  rw [hbytes]
  split
  · rfl
  · rename_i hnot
    refine h.fresh _ (Nat.le_of_not_lt fun hlt => hnot ⟨hi, hlt⟩)

end PoolOk

/-! ## What a guest sees -/

/-- A memory with storage of its own: its visible bytes, and how far it may grow. -/
structure VisibleMemory where
  bytes : List UInt8
  capacity : Nat

namespace VisibleMemory

/-- A new memory reads as zeros. -/
def new (minimum capacity : Nat) : VisibleMemory := ⟨List.replicate minimum 0, capacity⟩

def write (v : VisibleMemory) (addr : Nat) (value : UInt8) : VisibleMemory :=
  { v with bytes := v.bytes.set addr value }

/-- Growth keeps what is there and appends zeros. -/
def grown (v : VisibleMemory) (newSize : Nat) : VisibleMemory :=
  { v with bytes := v.bytes ++ List.replicate (newSize - v.bytes.length) 0 }

end VisibleMemory

namespace LinearMemory

/-- The visible part of a memory over the slab. -/
def view (p : Pool) (m : LinearMemory) : VisibleMemory :=
  ⟨(List.range m.byteSize).map (m.byte p), m.byteCapacity⟩

@[simp] theorem length_view (p : Pool) (m : LinearMemory) : (m.view p).bytes.length = m.currentSize := by
  simp [view, byteSize]

/-- Views are equal when sizes, capacities and visible bytes are. -/
theorem view_eq {p : Pool} {m : LinearMemory} {v : VisibleMemory} (hcap : m.maximumSize = v.capacity)
    (hsize : m.currentSize = v.bytes.length)
    (hbytes : ∀ i (hi : i < v.bytes.length), m.byte p i = v.bytes[i]) : m.view p = v := by
  obtain ⟨bytes, capacity⟩ := v
  obtain rfl : m.maximumSize = capacity := hcap
  refine congrArg (VisibleMemory.mk · m.maximumSize) (ext_getElem ?_ ?_)
  · simpa [byteSize] using hsize
  · intro i hi hi'
    simpa using hbytes i hi'

theorem view_congr {p p' : Pool} {m : LinearMemory}
    (h : ∀ r, m.region = some r → ∀ i < m.currentSize, p'.bytes (r.offset + i) = p.bytes (r.offset + i)) :
    m.view p' = m.view p := by
  refine view_eq rfl (by simp) ?_
  intro i hi
  rw [length_view] at hi
  simp only [view, byteSize, getElem_map, getElem_range]
  obtain ⟨backing, currentSize, maximumSize⟩ := m
  cases backing with
  | pooled r => exact h r rfl i hi
  | fresh b => rfl

end LinearMemory

namespace MemoryState

def views (s : MemoryState) : List VisibleMemory := s.memories.map (LinearMemory.view s.pool.pool)

def bases (s : MemoryState) : List Base := s.memories.map LinearMemory.asPtr

end MemoryState

/-! ## The invariant -/

structure MemoryOk (s : MemoryState) : Prop where
  pool : PoolOk s.pool
  owned : ∀ r ∈ s.regions, r ∈ s.pool.owned
  distinct : s.regions.Nodup
  sized : ∀ m ∈ s.memories, m.currentSize ≤ m.maximumSize ∧ ∀ r, m.region = some r → m.maximumSize = r.size

/-- What a change of one memory, and of the slab under it, is confined to. -/
structure LinearMemory.Changed (p : Pool) (m : LinearMemory) (out : Pool × LinearMemory) : Prop where
  region : out.2.region = m.region
  base : out.2.asPtr = m.asPtr
  capacity : out.2.maximumSize = m.maximumSize
  sized : out.2.currentSize ≤ m.maximumSize
  pool : out.1 = { p with bytes := out.1.bytes }
  elsewhere : ∀ i, (∀ r, m.region = some r → ¬ (r.offset ≤ i ∧ i < r.stop)) → out.1.bytes i = p.bytes i

variable {i : Nat}

theorem filterMap_set_of_eq {α β : Type} (f : α → Option β) {l : List α} {a b : α}
    (ha : l[i]? = some a) (hf : f b = f a) : (l.set i b).filterMap f = l.filterMap f := by
  induction l generalizing i with
  | nil => rfl
  | cons c l ih =>
    cases i with
    | zero =>
      obtain rfl : c = a := Option.some.inj ha
      simp [filterMap_cons, hf]
    | succ i =>
      simp only [set_cons_succ, filterMap_cons]
      rw [ih ha]

namespace MemoryOk

variable {s : MemoryState}

variable {m : LinearMemory}

theorem mem_regions (hm : s.memories[i]? = some m) (hr : m.region = some r) : r ∈ s.regions :=
  mem_filterMap.mpr ⟨m, mem_of_getElem? hm, hr⟩

/-- Two memories of the list hold different regions. -/
theorem region_ne (h : MemoryOk s) {j : Nat} {m m' : LinearMemory} {r' : Region} (hm : s.memories[i]? = some m)
    (hm' : s.memories[j]? = some m') (hij : i ≠ j) (hr : m.region = some r) (hr' : m'.region = some r') : r ≠ r' := by
  have hpair := pairwise_iff_getElem.mp (pairwise_filterMap.mp h.distinct)
  obtain ⟨hi, rfl⟩ := List.getElem?_eq_some_iff.mp hm
  obtain ⟨hj, rfl⟩ := List.getElem?_eq_some_iff.mp hm'
  rcases Nat.lt_or_gt_of_ne hij with hlt | hgt
  · exact hpair i j hi hj hlt r hr r' hr'
  · exact (hpair j i hj hi hgt r' hr' r hr).symm

/-- ... and so they share no byte of the slab. -/
theorem separate (h : MemoryOk s) {j : Nat} {m m' : LinearMemory} {r' : Region}
    (hm : s.memories[i]? = some m) (hm' : s.memories[j]? = some m') (hij : i ≠ j)
    (hr : m.region = some r) (hr' : m'.region = some r') : Separate r.block r'.block :=
  h.pool.separate_owned (h.owned r (mem_regions hm hr)) (h.owned r' (mem_regions hm' hr'))
    (h.region_ne hm hm' hij hr hr')

/-- The visible part of a pooled memory lies in its region. -/
theorem visible_lt (h : MemoryOk s) (hm : m ∈ s.memories) (hr : m.region = some r) (hi : i < m.currentSize) :
    i < r.size := by
  obtain ⟨hle, hsize⟩ := h.sized m hm
  rw [hsize r hr] at hle
  exact Nat.lt_of_lt_of_le hi hle

variable {out : Pool × LinearMemory}

/-- A change of one memory is seen in that memory alone. -/
theorem views_replace (h : MemoryOk s) (hm : s.memories[i]? = some m) (hout : m.Changed s.pool.pool out) :
    (s.replace i out).views = s.views.set i (out.2.view out.1) := by
  refine ext_getElem? fun j => ?_
  simp only [MemoryState.views, MemoryState.replace, getElem?_map, List.getElem?_set, length_map]
  by_cases hij : i = j
  · subst hij
    simp only [if_true]
    split <;> rfl
  · simp only [hij, if_false]
    cases hm' : s.memories[j]? with
    | none => rfl
    | some m' =>
      refine congrArg some (LinearMemory.view_congr ?_)
      intro r' hr' k hk
      refine hout.elsewhere _ ?_
      intro r hr
      have hlt := h.visible_lt (mem_of_getElem? hm') hr' hk
      exact bytes_apart (h.separate hm hm' hij hr hr') hlt

theorem bases_replace (hm : s.memories[i]? = some m) (hout : m.Changed s.pool.pool out) :
    (s.replace i out).bases = s.bases := by
  refine ext_getElem? fun j => ?_
  simp only [MemoryState.bases, MemoryState.replace, getElem?_map, List.getElem?_set]
  by_cases hij : i = j
  · subst hij
    obtain ⟨hi, rfl⟩ := List.getElem?_eq_some_iff.mp hm
    simp [hi, hout.base]
  · simp [hij]

theorem replace (h : MemoryOk s) (hm : s.memories[i]? = some m)
    (hout : m.Changed s.pool.pool out) : MemoryOk (s.replace i out) := by
  have hregions : (s.replace i out).regions = s.regions :=
    filterMap_set_of_eq region hm hout.region
  have hmem := mem_of_getElem? hm
  refine ⟨?_, ?_, ?_, ?_⟩
  · unfold MemoryState.replace
    dsimp only
    rw [hout.pool]
    cases hr : m.region with
    | none =>
      have hsame : out.1.bytes = s.pool.pool.bytes :=
        funext fun i => hout.elsewhere i fun r hr' => nomatch hr.symm.trans hr'
      rw [hsame]
      exact h.pool
    | some r =>
      refine h.pool.store (h.owned r (mem_regions hm hr)) ?_
      intro i hi
      refine hout.elsewhere i fun r' hr' => ?_
      obtain rfl := Option.mem_unique hr hr'
      exact hi
  · rw [hregions]
    exact h.owned
  · rw [hregions]
    exact h.distinct
  · intro m' hm'
    rcases mem_or_eq_of_mem_set hm' with hold | rfl
    · exact h.sized m' hold
    · rw [hout.capacity, hout.region]
      exact ⟨hout.sized, (h.sized m hmem).2⟩

end MemoryOk

/-! ## Writing and growing -/

namespace LinearMemory

variable {p : Pool} {m : LinearMemory}

/-- A guest's store stays in its memory. -/
theorem write_changed (hsized : m.currentSize ≤ m.maximumSize)
    (hregion : ∀ r, m.region = some r → m.maximumSize = r.size) (addr : Nat) (value : UInt8) :
    m.Changed p (m.write p addr value) := by
  obtain ⟨backing, currentSize, maximumSize⟩ := m
  unfold write
  split
  · rename_i haddr
    cases backing with
    | fresh b => exact ⟨rfl, rfl, rfl, hsized, rfl, fun _ _ => rfl⟩
    | pooled r =>
      refine ⟨rfl, rfl, rfl, hsized, rfl, ?_⟩
      intro i hi
      refine Function.update_of_ne ?_ _ _
      intro heq
      have hsize : maximumSize = r.size := hregion r rfl
      have hlt : addr < r.size := Nat.lt_of_lt_of_le haddr (hsize ▸ hsized)
      refine hi r rfl ⟨by omega, ?_⟩
      unfold Region.stop
      omega
  · exact ⟨rfl, rfl, rfl, hsized, rfl, fun _ _ => rfl⟩

theorem view_write {addr : Nat} (haddr : addr < m.currentSize) (value : UInt8) :
    (m.write p addr value).2.view (m.write p addr value).1 = (m.view p).write addr value := by
  obtain ⟨backing, currentSize, maximumSize⟩ := m
  unfold write
  rw [if_pos haddr]
  cases backing with
  | fresh b =>
    refine view_eq rfl (by simp [VisibleMemory.write]) ?_
    intro i hi
    simp [VisibleMemory.write, view, byte, getElem_set, Function.update_apply, eq_comm (a := addr)]
  | pooled r =>
    refine view_eq rfl (by simp [VisibleMemory.write]) ?_
    intro i hi
    simp [VisibleMemory.write, view, byte, getElem_set, Function.update_apply, eq_comm (a := addr)]

/-- `grow_to` succeeds for the sizes from the visible one to the capacity, and for no other. -/
theorem growTo_ok_iff (p : Pool) (m : LinearMemory) (newSize : Nat) :
    (m.growTo p newSize).2 = .ok () ↔ m.currentSize ≤ newSize ∧ newSize ≤ m.maximumSize := by
  unfold growTo
  split
  · rename_i hmax
    exact ⟨(nomatch ·), fun h => absurd h.2 (Nat.not_le_of_lt hmax)⟩
  · rename_i hmax
    split
    · rename_i hmin
      exact ⟨(nomatch ·), fun h => absurd h.1 (Nat.not_le_of_lt hmin)⟩
    · rename_i hmin
      refine ⟨fun _ => ⟨Nat.le_of_not_lt hmin, Nat.le_of_not_lt hmax⟩, fun _ => ?_⟩
      cases m.backing <;> rfl

variable {newSize : Nat}

/-- A refused `grow_to` changes nothing. -/
theorem growTo_refused (h : ¬ (m.currentSize ≤ newSize ∧ newSize ≤ m.maximumSize)) :
    (m.growTo p newSize).1 = (p, m) := by
  unfold growTo
  split
  · rfl
  · rename_i hmax
    split
    · rfl
    · rename_i hmin
      exact absurd ⟨Nat.le_of_not_lt hmin, Nat.le_of_not_lt hmax⟩ h

theorem growTo_eq (hmin : m.currentSize ≤ newSize) (hmax : newSize ≤ m.maximumSize) :
    (m.growTo p newSize).1 =
      match m.backing with
      | .pooled r =>
        (p.zero (r.offset + m.currentSize) (r.offset + newSize), { m with currentSize := newSize })
      | .fresh b =>
        (p, { m with backing := .fresh (b.zero m.currentSize newSize), currentSize := newSize }) := by
  unfold growTo
  rw [if_neg (Nat.not_lt_of_le hmax), if_neg (Nat.not_lt_of_le hmin)]
  cases m.backing <;> rfl

theorem growTo_changed (hregion : ∀ r, m.region = some r → m.maximumSize = r.size) (hmin : m.currentSize ≤ newSize)
    (hmax : newSize ≤ m.maximumSize) : m.Changed p (m.growTo p newSize).1 := by
  rw [growTo_eq hmin hmax]
  obtain ⟨backing, currentSize, maximumSize⟩ := m
  cases backing with
  | fresh b => exact ⟨rfl, rfl, rfl, hmax, rfl, fun _ _ => rfl⟩
  | pooled r =>
    refine ⟨rfl, rfl, rfl, hmax, rfl, ?_⟩
    intro i hi
    refine if_neg fun hin => hi r rfl ⟨Nat.le_of_add_right_le hin.1, ?_⟩
    have hsize : maximumSize = r.size := hregion r rfl
    have hnew : newSize ≤ r.size := hsize ▸ hmax
    exact Nat.lt_of_lt_of_le hin.2 (Nat.add_le_add_left hnew _)

/-- What `grow_to` exposes is zero whatever the backing held there; the rest is as it was. -/
theorem view_growTo (hmin : m.currentSize ≤ newSize) (hmax : newSize ≤ m.maximumSize) :
    (m.growTo p newSize).1.2.view (m.growTo p newSize).1.1 = (m.view p).grown newSize := by
  rw [growTo_eq hmin hmax]
  obtain ⟨backing, currentSize, maximumSize⟩ := m
  have hlength : currentSize + (newSize - currentSize) = newSize := Nat.add_sub_cancel' hmin
  cases backing with
  | fresh b =>
    refine view_eq rfl (by simpa [VisibleMemory.grown] using hlength.symm) ?_
    intro i hi
    have hlt : i < newSize := by simpa [VisibleMemory.grown, hlength] using hi
    simp only [VisibleMemory.grown, view, byteSize, byte, FreshBuffer.zero, getElem_append,
      length_map, length_range, getElem_map, getElem_range, getElem_replicate]
    by_cases hold : i < currentSize
    · simp [hold, Nat.not_le_of_lt hold]
    · simp [hold, Nat.le_of_not_lt hold, hlt]
  | pooled r =>
    refine view_eq rfl (by simpa [VisibleMemory.grown] using hlength.symm) ?_
    intro i hi
    have hlt : i < newSize := by simpa [VisibleMemory.grown, hlength] using hi
    simp only [VisibleMemory.grown, view, byteSize, byte, Pool.zero, getElem_append,
      length_map, length_range, getElem_map, getElem_range, getElem_replicate,
      Nat.add_le_add_iff_left, Nat.add_lt_add_iff_left]
    by_cases hold : i < currentSize
    · simp [hold, Nat.not_le_of_lt hold]
    · simp [hold, Nat.le_of_not_lt hold, hlt]

end LinearMemory

/-! ## Other users of the pool -/

theorem PoolState.owned_settle (rest : List Call) (out : Pool × Progress)
    (hr : r ∈ s.owned) : r ∈ (s.settle rest out).owned := by
  obtain ⟨p, progress⟩ := out
  cases progress with
  | allocated r' => exact mem_cons_of_mem _ hr
  | _ => exact hr

theorem mem_eraseIdx_of_ne {α : Type} {l : List α} {a b : α} (hb : l[i]? = some b) (ha : a ∈ l)
    (hne : b ≠ a) : a ∈ l.eraseIdx i := by
  have hmem := (cons_eraseIdx_perm hb).mem_iff.mpr ha
  exact (mem_cons.mp hmem).resolve_left fun heq => hne heq.symm

/-- An access of a call in flight leaves what callers own alone. -/
theorem PoolOk.step_bytes {s : PoolState} (h : PoolOk s) {c : Call} (hc : c ∈ s.calls) (spurious : Bool)
    (hr : r ∈ s.owned) (hi : i < r.size) :
    (c.step s.pool spurious).1.bytes (r.offset + i) = s.pool.bytes (r.offset + i) := by
  obtain ⟨k, hk⟩ := mem_iff_getElem?.mp hc
  have haccess := (h.first hk).access spurious
  generalize c.step s.pool spurious = out at haccess ⊢
  cases haccess with
  | clear =>
    exact if_neg fun hin => bytes_apart (h.separate_call hr hc rfl).symm hi
      ⟨hin.1, Nat.lt_of_lt_of_le hin.2 (Nat.min_le_left _ _)⟩
  | _ => rfl

/-- Only an action on a region itself gives it back or changes its bytes. -/
theorem PoolOk.step_keeps {s : PoolState} (h : PoolOk s) (a : PoolAction) (hr : r ∈ s.owned)
    (hother : a.region s ≠ some r) :
    r ∈ (s.step a).owned ∧ ∀ i < r.size, (s.step a).pool.bytes (r.offset + i) = s.pool.bytes (r.offset + i) := by
  cases a with
  | allocate req => exact ⟨hr, fun _ _ => rfl⟩
  | release k =>
    unfold PoolState.step
    dsimp only
    split
    · exact ⟨hr, fun _ _ => rfl⟩
    · rename_i r' hget
      refine ⟨mem_eraseIdx_of_ne hget hr ?_, fun _ _ => rfl⟩
      rintro rfl
      exact hother hget
  | advance k spurious =>
    unfold PoolState.step
    dsimp only
    split
    · exact ⟨hr, fun _ _ => rfl⟩
    · rename_i c hget
      refine ⟨s.owned_settle _ _ hr, ?_⟩
      intro i hi
      rw [PoolOk.settle_pool]
      exact h.step_bytes (mem_of_getElem? hget) spurious hr hi
  | write k offset value =>
    unfold PoolState.step
    dsimp only
    split
    · exact ⟨hr, fun _ _ => rfl⟩
    · rename_i r' hget
      split
      · rename_i hoffset
        refine ⟨hr, ?_⟩
        intro i hi
        have hne : r' ≠ r := by
          rintro rfl
          exact hother hget
        have hapart := bytes_apart (h.separate_owned (mem_of_getElem? hget) hr hne) hi
        refine Function.update_of_ne ?_ _ _
        intro heq
        refine hapart ⟨by omega, ?_⟩
        unfold Region.stop
        omega
      · exact ⟨hr, fun _ _ => rfl⟩
  | reset =>
    unfold PoolState.step
    dsimp only
    split
    · split
      · exact ⟨hr, fun _ _ => rfl⟩
      · rename_i p hreset
        unfold Pool.reset at hreset
        split at hreset
        · cases hreset
        · cases hreset
          exact ⟨hr, fun _ _ => rfl⟩
    · exact ⟨hr, fun _ _ => rfl⟩

/-! ## Creating and dropping -/

/-- What the checks of `new_memory` let through. Those of the minimum against the two caps follow from
the others. -/
theorem MemoryCreator.check_eq_ok {c : MemoryCreator} {a : NewMemory} {max : UInt64} :
    c.check a = .ok max ↔ max = effectiveMaxBytes a.maximum ∧ a.minimum ≤ max ∧
      max ≤ hardMaxLinearMemoryBytes ∧ max ≤ c.effectiveMaxLinearMemoryBytes ∧ a.guard = 0 ∧
      ∀ reserved, a.reserved = some reserved → reserved ≤ max := by
  obtain ⟨minimum, maximum, reserved, guard⟩ := a
  have hguard : guard ≤ 0 ↔ guard = 0 := by simp
  have htrans {b : UInt64} (hmin : minimum ≤ effectiveMaxBytes maximum) (hb : effectiveMaxBytes maximum ≤ b) :
      minimum ≤ b := le_trans hmin hb
  cases reserved with
  | none | some reserved =>
    simp only [MemoryCreator.check, guard_eq_ok, gt_iff_lt, not_lt, hguard, Except.ok.injEq]
    grind

variable {m : LinearMemory}

/-- A buffer of a memory's own shows zeros on the visible window. -/
theorem LinearMemory.newOn_eq_ok {minimum : UInt64} {maximum : Option UInt64} {allocated : Except String FreshBuffer}
    (h : newOn minimum maximum allocated = .ok m) :
    m.region = none ∧ m.currentSize = minimum.toNat ∧
      m.maximumSize = (effectiveMaxBytes maximum).toNat ∧ minimum ≤ effectiveMaxBytes maximum ∧
      ∀ p, ∀ i < minimum.toNat, m.byte p i = 0 := by
  simp only [newOn, guard_eq_ok] at h
  obtain ⟨-, -, hmin, h⟩ := h
  cases allocated with
  | error e => exact nomatch h
  | ok b =>
    cases h
    refine ⟨rfl, rfl, rfl, not_lt.mp hmin, ?_⟩
    intro p i hi
    exact if_pos ⟨Nat.zero_le _, hi⟩

theorem le_carveSize (max : UInt64) : max ≤ carveSize max := by
  unfold carveSize
  split
  · exact UInt64.le_of_lt ‹_›
  · exact UInt64.le_refl _

theorem carveSize_of_pos {max : UInt64} (h : 1 ≤ max) : carveSize max = max :=
  if_neg (not_lt.mpr h)

/-- The three outcomes of `new_memory`. A refusal of the pool is no outcome of its own: it leaves the
pool as it was and a buffer is allocated instead. -/
inductive Creation (s : MemoryState) (a : NewMemory) : MemoryState × Except String Unit → Prop where
  | refused (e : String) : Creation s a (s, .error e)
  | fresh {m : LinearMemory} (hregion : m.region = none) (hsize : m.currentSize = a.minimum.toNat)
      (hcap : m.maximumSize = (effectiveMaxBytes a.maximum).toNat)
      (hmin : a.minimum ≤ effectiveMaxBytes a.maximum)
      (hzero : ∀ p, ∀ i < a.minimum.toNat, m.byte p i = 0) :
    Creation s a ({ s with memories := m :: s.memories }, .ok ())
  | carved {pool : PoolState} {r : Region}
      (hpool : s.pool.allocate ⟨carveSize (effectiveMaxBytes a.maximum), wasmPage⟩ = (pool, .ok r))
      (hmin : a.minimum ≤ effectiveMaxBytes a.maximum) :
    Creation s a
      ({ pool := pool, memories := ⟨.pooled r, a.minimum.toNat, r.size⟩ :: s.memories }, .ok ())

theorem MemoryState.newFresh_cases (s : MemoryState) (a : NewMemory)
    (allocated : Except String FreshBuffer) : Creation s a (s.newFresh a allocated) := by
  unfold MemoryState.newFresh
  cases hnew : newOn a.minimum a.maximum allocated with
  | error e => exact .refused e
  | ok m =>
    obtain ⟨hregion, hsize, hcap, hmin, hzero⟩ := LinearMemory.newOn_eq_ok hnew
    exact .fresh hregion hsize hcap hmin hzero

theorem MemoryState.newMemory_cases (s : MemoryState) (c : MemoryCreator) (a : NewMemory)
    (allocated : Except String FreshBuffer) : Creation s a (s.newMemory c a allocated) := by
  unfold MemoryState.newMemory
  cases hcheck : c.check a with
  | error e => exact .refused e
  | ok max =>
    obtain ⟨rfl, hmin, -⟩ := MemoryCreator.check_eq_ok.mp hcheck
    dsimp only
    split
    · rcases s.pool.allocate_cases ⟨carveSize (effectiveMaxBytes a.maximum), wasmPage⟩ with
        ⟨e, he⟩ | ⟨offset, pool, hpool, -⟩
      · rw [he]
        exact s.newFresh_cases a allocated
      · rw [hpool]
        exact .carved hpool hmin
    · exact s.newFresh_cases a allocated

namespace MemoryOk

variable {s : MemoryState} (h : MemoryOk s)

include h

/-- Steps that keep the bytes of the memories' regions show the memories unchanged. -/
theorem views_congr {p : Pool}
    (hbytes : ∀ r ∈ s.regions, ∀ i < r.size, p.bytes (r.offset + i) = s.pool.pool.bytes (r.offset + i)) :
    s.memories.map (LinearMemory.view p) = s.views := by
  refine map_congr_left ?_
  intro m hm
  refine LinearMemory.view_congr ?_
  intro r hr i hi
  exact hbytes r (mem_filterMap.mpr ⟨m, hm, hr⟩) i (h.visible_lt hm hr hi)

/-- A new memory shows zeros, and the others show what they did. -/
theorem created {a : NewMemory} {out : MemoryState × Except String Unit} (hout : Creation s a out) : MemoryOk out.1 ∧
      (∀ e, out.2 = .error e → out.1 = s) ∧
      (out.2 = .ok () → ∃ capacity, out.1.views = .new a.minimum.toNat capacity :: s.views ∧
        (1 ≤ effectiveMaxBytes a.maximum → capacity = (effectiveMaxBytes a.maximum).toNat)) := by
  cases hout with
  | refused e => exact ⟨h, fun _ _ => rfl, (nomatch ·)⟩
  | @fresh m hregion hsize hcap hmin hzero =>
    have hregions : ({ s with memories := m :: s.memories } : MemoryState).regions = s.regions :=
      filterMap_cons_none hregion
    refine ⟨⟨h.pool, ?_, ?_, ?_⟩, (nomatch ·, ·), fun _ => ⟨_, ?_, fun _ => rfl⟩⟩
    · rw [hregions]
      exact h.owned
    · rw [hregions]
      exact h.distinct
    · refine forall_mem_cons.mpr ⟨⟨?_, fun r hr => nomatch hregion.symm.trans hr⟩, h.sized⟩
      rw [hsize, hcap]
      exact hmin
    · refine congrArg (· :: s.views) (LinearMemory.view_eq hcap ?_ ?_)
      · simpa [VisibleMemory.new] using hsize
      · intro i hi
        rw [hzero _ i (by simpa [VisibleMemory.new] using hi)]
        simp [VisibleMemory.new]
  | @carved pool r hpool hmin =>
    have hok := h.pool.allocate ⟨carveSize (effectiveMaxBytes a.maximum), wasmPage⟩
    rcases s.pool.allocate_cases ⟨carveSize (effectiveMaxBytes a.maximum), wasmPage⟩ with
      ⟨e, he⟩ | ⟨offset, pool', hpool', howned, helsewhere, hbytes⟩
    · exact nomatch congrArg Prod.snd (hpool.symm.trans he)
    · obtain ⟨rfl, hr⟩ := Prod.mk.inj (hpool.symm.trans hpool')
      cases hr
      rw [hpool] at hok
      change PoolOk pool at hok
      have hnodup := hok.owned_nodup
      rw [howned, nodup_cons] at hnodup
      have hnew : ∀ r' ∈ s.regions,
          (⟨offset, ⟨carveSize (effectiveMaxBytes a.maximum), wasmPage⟩⟩ : Region) ≠ r' := by
        rintro r' hr' rfl
        exact hnodup.1 (h.owned _ hr')
      have hsize : a.minimum.toNat ≤ (carveSize (effectiveMaxBytes a.maximum)).toNat :=
        le_iff_toNat_le.mp (le_trans hmin (le_carveSize _))
      refine ⟨⟨hok, ?_, ?_, ?_⟩, (nomatch ·, ·), fun _ => ⟨(carveSize (effectiveMaxBytes a.maximum)).toNat, ?_, ?_⟩⟩
      · intro r' hr'
        rw [howned]
        rcases mem_cons.mp hr' with rfl | hold
        · exact mem_cons_self
        · exact mem_cons_of_mem _ (h.owned r' hold)
      · exact nodup_cons.mpr ⟨fun hmem => hnew _ hmem rfl, h.distinct⟩
      · refine forall_mem_cons.mpr ⟨⟨hsize, ?_⟩, h.sized⟩
        intro r' hr'
        cases hr'
        rfl
      · refine congrArg₂ List.cons (LinearMemory.view_eq rfl ?_ ?_) (h.views_congr ?_)
        · simp [VisibleMemory.new]
        · intro i hi
          have hlt : i < a.minimum.toNat := by simpa [VisibleMemory.new] using hi
          have hzero := h.pool.allocated_zero hbytes (Nat.lt_of_lt_of_le hlt hsize)
          simpa [VisibleMemory.new, LinearMemory.byte] using hzero
        · intro r' hr' i hi
          refine helsewhere _ ?_
          have hsep := hok.separate_owned (howned ▸ mem_cons_self)
            (howned ▸ mem_cons_of_mem _ (h.owned r' hr')) (hnew r' hr')
          exact bytes_apart hsep hi
      · intro hpos
        exact congrArg UInt64.toNat (carveSize_of_pos hpos)

/-- A dropped memory is gone and the others show what they did. -/
theorem drop (i : Nat) : MemoryOk (s.drop i) ∧ (s.drop i).views = s.views.eraseIdx i := by
  unfold MemoryState.drop
  cases hm : s.memories[i]? with
  | none =>
    refine ⟨h, ?_⟩
    have hle : s.views.length ≤ i := by simpa [MemoryState.views] using List.getElem?_eq_none_iff.mp hm
    exact (eraseIdx_of_length_le hle).symm
  | some m =>
    have hmap : ∀ p, (s.memories.eraseIdx i).map (LinearMemory.view p) =
        (s.memories.map (LinearMemory.view p)).eraseIdx i := fun p => (eraseIdx_map _ _ _).symm
    have hsub : ((s.memories.eraseIdx i).filterMap region).Sublist s.regions :=
      (eraseIdx_sublist _ _).filterMap _
    have hsized : ∀ m ∈ s.memories.eraseIdx i, m.currentSize ≤ m.maximumSize ∧
        ∀ r, m.region = some r → m.maximumSize = r.size :=
      fun m hmem => h.sized m (mem_of_mem_eraseIdx hmem)
    obtain ⟨backing, currentSize, maximumSize⟩ := m
    cases backing with
    | fresh b =>
      exact ⟨⟨h.pool, fun r hr => h.owned r (hsub.subset hr), h.distinct.sublist hsub, hsized⟩, hmap _⟩
    | pooled r =>
      have hr := h.owned r (mem_regions hm rfl)
      refine ⟨⟨h.pool.release hr, ?_, h.distinct.sublist hsub, hsized⟩, hmap _⟩
      -- the other memories hold other regions, so these stay owned
      intro r' hr'
      have hperm : (r :: (s.memories.eraseIdx i).filterMap region).Perm s.regions :=
        (cons_eraseIdx_perm hm).filterMap region
      have hnodup := hperm.nodup_iff.mpr h.distinct
      have hne : r' ≠ r := by
        rintro rfl
        exact (nodup_cons.mp hnodup).1 hr'
      exact (mem_erase_of_ne hne).mpr (h.owned r' (hsub.subset hr'))

/-- The rest of the pool's users cannot be noticed. -/
theorem other (a : PoolAction) : MemoryOk (s.other a) ∧ (s.other a).views = s.views := by
  unfold MemoryState.other
  split
  · exact ⟨h, rfl⟩
  · rename_i hnot
    have hkeeps : ∀ r ∈ s.regions, r ∈ (s.pool.step a).owned ∧ ∀ i < r.size,
        (s.pool.step a).pool.bytes (r.offset + i) = s.pool.pool.bytes (r.offset + i) :=
      fun r hr => h.pool.step_keeps a (h.owned r hr) fun heq => hnot ⟨r, hr, heq⟩
    exact ⟨⟨h.pool.step a, fun r hr => (hkeeps r hr).1, h.distinct, h.sized⟩,
      h.views_congr fun r hr => (hkeeps r hr).2⟩

theorem write (i addr : Nat) (value : UInt8) : MemoryOk (s.write i addr value) := by
  unfold MemoryState.write
  cases hm : s.memories[i]? with
  | none => exact h
  | some m =>
    obtain ⟨hle, hregion⟩ := h.sized m (mem_of_getElem? hm)
    exact h.replace hm (LinearMemory.write_changed hle hregion addr value)

omit h in
/-- Putting a memory back as it was changes nothing. -/
theorem replace_self (hm : s.memories[i]? = some m) : s.replace i (s.pool.pool, m) = s := by
  obtain ⟨hi, rfl⟩ := List.getElem?_eq_some_iff.mp hm
  unfold MemoryState.replace
  simp

omit h in
theorem growTo_eq_self (hm : s.memories[i]? = some m) {newSize : Nat}
    (hnot : ¬ (m.currentSize ≤ newSize ∧ newSize ≤ m.maximumSize)) : s.growTo i newSize = s := by
  unfold MemoryState.growTo
  rw [hm]
  dsimp only
  rw [LinearMemory.growTo_refused hnot, replace_self hm]

theorem growTo (i newSize : Nat) : MemoryOk (s.growTo i newSize) := by
  cases hm : s.memories[i]? with
  | none =>
    unfold MemoryState.growTo
    rw [hm]
    exact h
  | some m =>
    by_cases hfits : m.currentSize ≤ newSize ∧ newSize ≤ m.maximumSize
    · have hregion := (h.sized m (mem_of_getElem? hm)).2
      unfold MemoryState.growTo
      rw [hm]
      exact h.replace hm (LinearMemory.growTo_changed hregion hfits.1 hfits.2)
    · rw [growTo_eq_self hm hfits]
      exact h

theorem step (a : MemoryAction) : MemoryOk (s.step a) := by
  cases a with
  | newMemory creator args allocated => exact (h.created (s.newMemory_cases creator args allocated)).1
  | write i addr value => exact h.write i addr value
  | growTo i newSize => exact h.growTo i newSize
  | drop i => exact (h.drop i).1
  | other a => exact (h.other a).1

omit h

theorem init (capacity : UInt64) : MemoryOk (MemoryState.init capacity.toNat) :=
  ⟨PoolOk.init capacity, nofun, nodup_nil, nofun⟩

theorem run (capacity : UInt64) (schedule : List MemoryAction) :
    MemoryOk ((MemoryState.init capacity.toNat).run schedule) :=
  run_keeps (fun _ a h => h.step a) (init capacity) schedule

end MemoryOk

/-! ## The whole -/

/-- Every operation acts on what the guests see as if each memory had storage of its own: a new memory
is all zeros, a store and a growth change their memory alone, and nothing else changes any. -/
structure LinearMemorySemantics (s : MemoryState) : Prop where
  created : ∀ creator args allocated, 1 ≤ effectiveMaxBytes args.maximum →
    (s.newMemory creator args allocated).2 = .ok () →
      (s.newMemory creator args allocated).1.views =
        .new args.minimum.toNat (effectiveMaxBytes args.maximum).toNat :: s.views
  notCreated : ∀ creator args allocated e, (s.newMemory creator args allocated).2 = .error e →
    (s.newMemory creator args allocated).1 = s
  written : ∀ i addr value v, s.views[i]? = some v → addr < v.bytes.length →
    (s.write i addr value).views = s.views.set i (v.write addr value)
  grows : ∀ (i : Nat) (m : LinearMemory) (newSize : Nat), s.memories[i]? = some m →
    ((m.growTo s.pool.pool newSize).2 = .ok () ↔ m.byteSize ≤ newSize ∧ newSize ≤ m.byteCapacity)
  grown : ∀ (i : Nat) (m : LinearMemory) (newSize : Nat), s.memories[i]? = some m →
    (m.growTo s.pool.pool newSize).2 = .ok () →
    (s.growTo i newSize).views = s.views.set i ((m.view s.pool.pool).grown newSize) ∧
      (s.growTo i newSize).bases = s.bases
  notGrown : ∀ (i : Nat) (m : LinearMemory) (newSize : Nat) (e : String), s.memories[i]? = some m →
    (m.growTo s.pool.pool newSize).2 = .error e → s.growTo i newSize = s
  dropped : ∀ i, (s.drop i).views = s.views.eraseIdx i
  unnoticed : ∀ a, (s.other a).views = s.views
  apart : s.memories.Pairwise fun m m' => ∀ r, m.region = some r → ∀ r', m'.region = some r' →
    r.stop ≤ r'.offset ∨ r'.stop ≤ r.offset
  inside : ∀ m ∈ s.memories, m.byteSize ≤ m.byteCapacity ∧
    ∀ r, m.region = some r → m.byteCapacity = r.size ∧ r.stop ≤ s.pool.pool.len

theorem MemoryOk.semantics {s : MemoryState} (h : MemoryOk s) : LinearMemorySemantics s where
  created := by
    intro creator args allocated hpos hok
    obtain ⟨capacity, hviews, hcap⟩ := (h.created (s.newMemory_cases creator args allocated)).2.2 hok
    rw [hviews, hcap hpos]
  notCreated := fun creator args allocated e he =>
    (h.created (s.newMemory_cases creator args allocated)).2.1 e he
  written := by
    intro i addr value v hv haddr
    obtain ⟨m, hm, rfl⟩ := getElem?_map.symm.trans hv |> Option.map_eq_some_iff.mp
    obtain ⟨hle, hregion⟩ := h.sized m (mem_of_getElem? hm)
    rw [LinearMemory.length_view] at haddr
    unfold MemoryState.write
    rw [hm]
    exact (h.views_replace hm (LinearMemory.write_changed hle hregion addr value)).trans
      (congrArg _ (LinearMemory.view_write haddr value))
  grows := fun _ m newSize _ => m.growTo_ok_iff s.pool.pool newSize
  grown := by
    intro i m newSize hm hok
    obtain ⟨hmin, hmax⟩ := (m.growTo_ok_iff s.pool.pool newSize).mp hok
    have hchanged := LinearMemory.growTo_changed (p := s.pool.pool)
      (h.sized m (mem_of_getElem? hm)).2 hmin hmax
    unfold MemoryState.growTo
    rw [hm]
    exact ⟨(h.views_replace hm hchanged).trans (congrArg _ (LinearMemory.view_growTo hmin hmax)),
      MemoryOk.bases_replace hm hchanged⟩
  notGrown := by
    intro i m newSize e hm he
    refine MemoryOk.growTo_eq_self hm ?_
    intro hfits
    rw [(m.growTo_ok_iff s.pool.pool newSize).mpr hfits] at he
    cases he
  dropped := fun i => (h.drop i).2
  unnoticed := fun a => (h.other a).2
  apart := by
    refine pairwise_iff_getElem.mpr ?_
    intro i j hi hj hij r hr r' hr'
    exact h.separate (List.getElem?_eq_getElem hi) (List.getElem?_eq_getElem hj) (Nat.ne_of_lt hij) hr hr'
  inside := by
    intro m hm
    obtain ⟨hle, hsize⟩ := h.sized m hm
    refine ⟨hle, fun r hr => ⟨hsize r hr, ?_⟩⟩
    have howned := h.owned r (mem_filterMap.mpr ⟨m, hm, hr⟩)
    exact h.pool.invariant.inside r (mem_append_left _ howned)

/-- **Linear memory semantics**: it holds after every history of memories created, written, grown and
dropped, whatever else happens in the pool. -/
theorem linear_memory_semantics (capacity : UInt64) (schedule : List MemoryAction) :
    LinearMemorySemantics ((MemoryState.init capacity.toNat).run schedule) :=
  (MemoryOk.run capacity schedule).semantics

/-! ## Memories without a maximum -/

variable {s : MemoryState} {c : MemoryCreator} {a : NewMemory}

end TensorWasm.Mem
