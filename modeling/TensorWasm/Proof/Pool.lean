import TensorWasm.Lib.Carve
import TensorWasm.Mem.Pool

/-!
# The pool under every schedule

The invariant of the pool over all interleavings of its calls. A call that has moved the cursor
holds its region until `allocate` returns it, and a call that releases holds the region it was given;
`held` lists these together with the regions the callers own. Held regions are carved below the
cursor (`Lib.Carved`), which gives disjointness and bounds.

Zero-filling needs no history: bytes at or above the high-water mark are zero, only owned regions are
written, and a region is owned only once the mark covers it. So a carving call finds zeros above the
mark it loads, and nobody else writes there until it returns.
-/

namespace TensorWasm.Mem

open Lib List
open PoolState (step)

/-! ## Placing a request -/

theorem checkRequest_eq_ok {req : Request} (h : checkRequest req = .ok ()) :
    0 < req.size.toNat ∧ ∃ k, req.align.toNat = 2 ^ k := by
  unfold checkRequest at h
  dsimp only at h
  split at h
  · cases h
  · rename_i hsize
    split at h
    · cases h
    · rename_i hpow
      refine ⟨?_, req.align.toNat.log2, ?_⟩
      · rw [Nat.pos_iff_ne_zero]
        intro hzero
        exact hsize (UInt64.toNat_inj.mp hzero)
      · simp only [Bool.or_eq_true, decide_eq_true_eq, not_or, Bool.not_eq_true',
          Bool.not_eq_false, isPowerOfTwo, beq_iff_eq] at hpow
        exact hpow.2

theorem checkedAdd_eq_some {a b c : Nat} (h : checkedAdd a b = some c) : c = a + b ∧ c < 2 ^ 64 := by
  unfold checkedAdd at h
  split at h
  · rename_i hlt
    cases h
    exact ⟨rfl, hlt⟩
  · cases h

theorem le_roundUp {a : Nat} (ha : 0 < a) (n : Nat) : n ≤ (n + (a - 1)) / a * a := by
  have hdiv := Nat.div_add_mod (n + (a - 1)) a
  have hmod := Nat.mod_lt (n + (a - 1)) ha
  rw [Nat.mul_comm] at hdiv
  omega

/-- A placed request starts at or above the cursor, aligned, and ends inside the slab. -/
theorem place_eq_ok {len current aligned newEnd : Nat} {req : Request} (hreq : checkRequest req = .ok ())
    (h : place len req current = .ok (aligned, newEnd)) :
    current ≤ aligned ∧ newEnd = aligned + req.size.toNat ∧ newEnd ≤ len ∧ aligned % req.align.toNat = 0 := by
  obtain ⟨-, k, hk⟩ := checkRequest_eq_ok hreq
  unfold place at h
  cases hv : checkedAdd current (req.align.toNat - 1) with
  | none => rw [hv] at h; exact nomatch h
  | some v =>
    obtain ⟨rfl, hlt⟩ := checkedAdd_eq_some hv
    rw [hv] at h
    dsimp only at h
    have halign : clearBits (current + (req.align.toNat - 1)) (req.align.toNat - 1) =
        (current + (req.align.toNat - 1)) / req.align.toNat * req.align.toNat := by
      rw [hk] at hlt ⊢
      exact clearBits_two_pow hlt k
    rw [halign] at h
    cases he : checkedAdd ((current + (req.align.toNat - 1)) / req.align.toNat * req.align.toNat)
        req.size.toNat with
    | none => rw [he] at h; exact nomatch h
    | some stop =>
      obtain ⟨rfl, -⟩ := checkedAdd_eq_some he
      rw [he] at h
      dsimp only at h
      split at h
      · cases h
      · rename_i hlen
        cases h
        refine ⟨le_roundUp ?_ current, rfl, Nat.le_of_not_lt hlen, Nat.mul_mod_left _ _⟩
        rw [hk]
        exact Nat.two_pow_pos k

/-! ## What is held -/

def Region.block (r : Region) : Nat × Nat := (r.offset, r.size)

/-- The region an `allocate` call has reserved. -/
def AllocatePc.offset : AllocatePc → Option Nat
  | .enter | .loadBump | .casBump .. => none
  | .countLive o | .loadIssued o | .casIssued o _ | .loadHighWater o | .zeroRecycled o _
  | .casHighWater o _ => some o

def Call.region : Call → Option Region
  | .allocate req pc => pc.offset.map fun o => ⟨o, req⟩
  | .release r _ => some r

/-- The live counter includes the call's region. -/
def Call.counted : Call → Bool
  | .allocate _ (.countLive _) => false
  | .allocate _ pc => pc.offset.isSome
  | .release _ _ => true

def Call.releasing : Call → Option Region
  | .allocate _ _ => none
  | .release r _ => some r

/-- Regions handed out and not released yet. -/
def PoolState.liveRegions (s : PoolState) : List Region :=
  s.owned ++ s.calls.filterMap Call.releasing

/-- `allocate` calls that have counted their region and not returned it. -/
def PoolState.counting (s : PoolState) : Nat :=
  s.calls.countP fun c => c.counted && c.releasing.isNone

/-- Every region no other call may touch. -/
def PoolState.held (s : PoolState) : List Region := s.owned ++ s.calls.filterMap Call.region

/-! ## What a step can do -/

inductive PoolStep (s : PoolState) : PoolState → Prop where
  | stay : PoolStep s s
  | enter (req : Request) : PoolStep s { s with calls := .allocate req .enter :: s.calls }
  | startRelease {i : Nat} {r : Region} (hr : s.owned[i]? = some r) :
    PoolStep s { s with owned := s.owned.eraseIdx i, calls := .release r .loadLive :: s.calls }
  | advance {i : Nat} {c : Call} (hc : s.calls[i]? = some c) (spurious : Bool) :
    PoolStep s (s.settle (s.calls.eraseIdx i) (c.step s.pool spurious))
  | write {r : Region} (hr : r ∈ s.owned) {offset : Nat} (hoffset : offset < r.size)
      (value : UInt8) :
    PoolStep s { s with pool := { s.pool with
      bytes := Function.update s.pool.bytes (r.offset + offset) value } }
  | reset (hcalls : s.calls = []) {p : Pool} (hreset : s.pool.reset = .ok p) :
    PoolStep s { s with pool := p }

theorem PoolState.step_cases (s : PoolState) (a : PoolAction) : PoolStep s (s.step a) := by
  cases a with
  | allocate req => exact .enter req
  | release i =>
    unfold step
    dsimp only
    split
    · exact .stay
    · exact .startRelease ‹_›
  | advance i spurious =>
    unfold step
    dsimp only
    split
    · exact .stay
    · exact .advance ‹_› spurious
  | write i offset value =>
    unfold step
    dsimp only
    split
    · exact .stay
    · split
      · exact .write (mem_of_getElem? ‹_›) ‹_› value
      · exact .stay
  | reset =>
    unfold step
    dsimp only
    split
    · split
      · exact .stay
      · exact .reset ‹_› ‹_›
    · exact .stay

/-! ## The invariant -/

/-- What a call relies on at each access: a checked request, the place it computed, and zeros above
the mark it loaded, or everywhere once it has cleared the rest. -/
def CallOk (p : Pool) : Call → Prop
  | .allocate req .loadBump => checkRequest req = .ok ()
  | .allocate req (.casBump current aligned newEnd) =>
    checkRequest req = .ok () ∧ place p.len req current = .ok (aligned, newEnd)
  | .allocate req (.zeroRecycled offset highWater) =>
    highWater ≤ p.carvedHighWater ∧ ∀ i < req.size.toNat, highWater ≤ offset + i → p.bytes (offset + i) = 0
  | .allocate req (.casHighWater offset hw) =>
    hw ≤ p.carvedHighWater ∧ ∀ i < req.size.toNat, p.bytes (offset + i) = 0
  | .release _ (.casLive current) => 0 < current
  | _ => True

/-- What one access of a call can do to the pool, and what it leads to. -/
inductive Access (p : Pool) : Call → Pool × Progress → Prop where
  | refuse {c : Call} (hregion : c.region = none) (e : UnifiedError) : Access p c (p, .refused e)
  | move {c c' : Call} (hregion : c'.region = c.region) (hcounted : c'.counted = c.counted)
      (hreleasing : c'.releasing = c.releasing) (hok : CallOk p c') : Access p c (p, .running c')
  | carve {req : Request} {aligned newEnd : Nat} :
    Access p (.allocate req (.casBump p.bump aligned newEnd))
      ({ p with bump := newEnd }, .running (.allocate req (.countLive aligned)))
  | count {req : Request} {offset : Nat} :
    Access p (.allocate req (.countLive offset))
      ({ p with live := (p.live + 1) % 2 ^ 64 }, .running (.allocate req (.loadIssued offset)))
  | issue {req : Request} {offset issued total : Nat} :
    Access p (.allocate req (.casIssued offset issued))
      ({ p with issuedTotal := total }, .running (.allocate req (.loadHighWater offset)))
  | clear {req : Request} {offset highWater : Nat} :
    Access p (.allocate req (.zeroRecycled offset highWater))
      (p.zero offset (min (offset + req.size.toNat) highWater),
        .running (.allocate req (.casHighWater offset highWater)))
  | handOut {req : Request} {offset hw mark : Nat} (hmark : p.carvedHighWater ≤ mark)
      (hstop : offset + req.size.toNat ≤ mark) :
    Access p (.allocate req (.casHighWater offset hw))
      ({ p with carvedHighWater := mark }, .allocated ⟨offset, req⟩)
  | countOff {r : Region} :
    Access p (.release r (.casLive p.live)) ({ p with live := p.live - 1 }, .released)

structure PoolOk (s : PoolState) : Prop where
  capacity : s.pool.len < 2 ^ 64
  cursor : s.pool.bump ≤ s.pool.len
  carved : Carved s.pool.bump (s.held.map Region.block)
  aligned : ∀ r ∈ s.held, r.offset % r.request.align.toNat = 0
  counter : s.pool.live = s.owned.length + s.calls.countP Call.counted
  handed : s.handedOut = s.released + s.liveRegions.length
  fresh : ∀ i, s.pool.carvedHighWater ≤ i → s.pool.bytes i = 0
  covered : ∀ r ∈ s.owned, r.stop ≤ s.pool.carvedHighWater
  calls : ∀ c ∈ s.calls, CallOk s.pool c

variable {c : Call}

/-- A call does not notice changes of the cursor and the counters, a higher mark, or writes outside
its region. -/
theorem CallOk.stable {p p' : Pool} (h : CallOk p c) (hlen : p'.len = p.len)
    (hmark : p.carvedHighWater ≤ p'.carvedHighWater)
    (hbytes : ∀ r, c.region = some r → ∀ i < r.size, p'.bytes (r.offset + i) = p.bytes (r.offset + i)) :
    CallOk p' c := by
  cases c with
  | release r pc => cases pc <;> exact h
  | allocate req pc =>
    cases pc with
    | casBump current aligned newEnd => exact ⟨h.1, hlen ▸ h.2⟩
    | zeroRecycled offset highWater =>
      refine ⟨h.1.trans hmark, ?_⟩
      intro i hi hle
      rw [hbytes ⟨offset, req⟩ rfl i hi]
      exact h.2 i hi hle
    | casHighWater offset hw =>
      refine ⟨h.1.trans hmark, ?_⟩
      intro i hi
      rw [hbytes ⟨offset, req⟩ rfl i hi]
      exact h.2 i hi
    | _ => exact h

/-- Calls that rely on the pool only through its bytes and mark. -/
theorem CallOk.congr {p p' : Pool} (h : CallOk p c) (hlen : p'.len = p.len)
    (hmark : p'.carvedHighWater = p.carvedHighWater) (hbytes : p'.bytes = p.bytes) : CallOk p' c :=
  h.stable hlen (Nat.le_of_eq hmark.symm) fun _ _ _ _ => by rw [hbytes]

variable {i : Nat}

theorem cons_eraseIdx_perm {α : Type} {l : List α} {a : α} (h : l[i]? = some a) : (a :: l.eraseIdx i).Perm l := by
  obtain ⟨hi, rfl⟩ := List.getElem?_eq_some_iff.mp h
  exact getElem_cons_eraseIdx_perm hi

theorem sublist_filterMap_of_imp {α β : Type} {f g : α → Option β} (h : ∀ a b, f a = some b → g a = some b)
    (l : List α) : (l.filterMap f).Sublist (l.filterMap g) := by
  induction l with
  | nil => exact .refl _
  | cons a l ih =>
    cases hf : f a with
    | some b =>
      rw [filterMap_cons_some hf, filterMap_cons_some (h a b hf)]
      exact ih.cons_cons b
    | none =>
      rw [filterMap_cons_none hf]
      cases hg : g a with
      | none => rw [filterMap_cons_none hg]; exact ih
      | some b => rw [filterMap_cons_some hg]; exact ih.cons b

theorem PoolState.liveRegions_sublist (s : PoolState) : s.liveRegions.Sublist s.held := by
  refine List.Sublist.append (.refl _) (sublist_filterMap_of_imp ?_ _)
  intro c r hr
  cases c with
  | allocate req pc => exact nomatch hr
  | release r' pc => exact hr

theorem countP_counted (calls : List Call) :
    calls.countP Call.counted =
      (calls.countP fun c => c.counted && c.releasing.isNone) + (calls.filterMap Call.releasing).length := by
  induction calls with
  | nil => rfl
  | cons c calls ih =>
    cases c with
    | release r pc =>
      simp only [countP_cons, filterMap_cons, Call.counted, Call.releasing, ih,
        length_cons, Option.isNone_some, Bool.and_false, if_true]
      simp
      omega
    | allocate req pc =>
      simp only [countP_cons, filterMap_cons, Call.releasing, ih, Option.isNone_none, Bool.and_true]
      omega

theorem Call.of_region_none (h : c.region = none) : c.counted = false ∧ c.releasing = none := by
  cases c with
  | release r pc => exact nomatch h
  | allocate req pc => cases pc <;> first | exact ⟨rfl, rfl⟩ | exact nomatch h

theorem countP_counted_le (calls : List Call) : calls.countP Call.counted ≤ (calls.filterMap Call.region).length := by
  induction calls with
  | nil => exact Nat.le_refl _
  | cons c calls ih =>
    cases hc : c.region with
    | none =>
      rw [filterMap_cons_none hc, countP_cons, (Call.of_region_none hc).1]
      exact ih
    | some r =>
      rw [filterMap_cons_some hc, countP_cons, length_cons]
      split <;> omega

theorem Separate.bytes_apart {r r' : Region} (h : Separate r.block r'.block)
    (hi : i < r'.size) : ¬ (r.offset ≤ r'.offset + i ∧ r'.offset + i < r.stop) := by
  rcases h with h | h
  · change r.stop ≤ r'.offset at h
    omega
  · change r'.offset + r'.size ≤ r.offset at h
    omega

namespace PoolOk

variable {s : PoolState}

/-- The order of the calls in flight does not matter. -/
theorem perm {calls : List Call} (h : PoolOk s) (hperm : s.calls.Perm calls) : PoolOk { s with calls := calls } := by
  have hheld : s.held.Perm ({ s with calls := calls } : PoolState).held :=
    (hperm.filterMap _).append_left _
  refine ⟨h.capacity, h.cursor, h.carved.perm (hheld.map _), ?_, ?_, ?_, h.fresh, h.covered, ?_⟩
  · intro r hr
    exact h.aligned r (hheld.mem_iff.mpr hr)
  · rw [h.counter, hperm.countP_eq]
  · rw [h.handed]
    exact congrArg _ ((hperm.filterMap _).append_left _).length_eq
  · intro c hc
    exact h.calls c (hperm.mem_iff.mpr hc)

/-- What callers own is out of the reach of the calls in flight. -/
theorem separate_call (h : PoolOk s) {r r' : Region} (hr : r ∈ s.owned)
    (hc : c ∈ s.calls) (hregion : c.region = some r') : Separate r.block r'.block := by
  have hsep := h.carved.separate
  rw [PoolState.held, map_append, pairwise_append] at hsep
  exact hsep.2.2 _ (mem_map_of_mem hr) _
    (mem_map_of_mem (mem_filterMap.mpr ⟨c, hc, hregion⟩))

variable {rest : List Call}

/-- A call's region is out of the reach of the other calls. -/
theorem separate_rest {c' : Call} (h : PoolOk { s with calls := c :: rest }) {r r' : Region}
    (hc : c.region = some r) (hc' : c' ∈ rest) (hregion : c'.region = some r') : Separate r.block r'.block := by
  have hsep := h.carved.separate
  rw [PoolState.held, map_append, pairwise_append] at hsep
  have hcalls := hsep.2.1
  rw [filterMap_cons_some hc, map_cons, pairwise_cons] at hcalls
  exact hcalls.1 _ (mem_map_of_mem (mem_filterMap.mpr ⟨c', hc', hregion⟩))

theorem held_cons (c : Call) (rest : List Call) :
    ({ s with calls := c :: rest } : PoolState).held =
      s.owned ++ (c.region.toList ++ rest.filterMap Call.region) := by
  unfold PoolState.held
  cases hc : c.region with
  | none => rw [filterMap_cons_none hc]; rfl
  | some r => rw [filterMap_cons_some hc]; rfl

theorem liveRegions_cons (c : Call) (rest : List Call) :
    ({ s with calls := c :: rest } : PoolState).liveRegions =
      s.owned ++ (c.releasing.toList ++ rest.filterMap Call.releasing) := by
  unfold PoolState.liveRegions
  cases hc : c.releasing with
  | none => rw [filterMap_cons_none hc]; rfl
  | some r => rw [filterMap_cons_some hc]; rfl

/-! ### Steps of one call, at the head of the list -/

/-- A step that moves the call only. -/
theorem replace {c' : Call} (h : PoolOk { s with calls := c :: rest }) (hregion : c'.region = c.region)
    (hcounted : c'.counted = c.counted) (hreleasing : c'.releasing = c.releasing) (hok : CallOk s.pool c') :
    PoolOk { s with calls := c' :: rest } := by
  have hheld : ({ s with calls := c' :: rest } : PoolState).held =
      ({ s with calls := c :: rest } : PoolState).held := by
    rw [held_cons, held_cons, hregion]
  refine ⟨h.capacity, h.cursor, hheld ▸ h.carved, hheld ▸ h.aligned, ?_, ?_, h.fresh, h.covered, ?_⟩
  · have := h.counter
    rw [countP_cons] at this ⊢
    rw [hcounted]
    exact this
  · have := h.handed
    rw [liveRegions_cons] at this ⊢
    rw [hreleasing]
    exact this
  · exact forall_mem_cons.mpr ⟨hok, (forall_mem_cons.mp h.calls).2⟩

/-- A call without a region leaves. -/
theorem refuse (h : PoolOk { s with calls := c :: rest }) (hregion : c.region = none) :
    PoolOk { s with calls := rest } := by
  obtain ⟨hcounted, hreleasing⟩ := Call.of_region_none hregion
  have hheld : ({ s with calls := c :: rest } : PoolState).held =
      ({ s with calls := rest } : PoolState).held := by
    rw [held_cons, hregion]
    rfl
  refine ⟨h.capacity, h.cursor, hheld ▸ h.carved, hheld ▸ h.aligned, ?_, ?_, h.fresh, h.covered,
    (forall_mem_cons.mp h.calls).2⟩
  · have := h.counter
    rw [countP_cons, hcounted] at this
    exact this
  · have := h.handed
    rw [liveRegions_cons, hreleasing] at this
    exact this

variable {req : Request}

/-- The exchange of the cursor succeeds. -/
theorem carve {aligned newEnd : Nat}
    (h : PoolOk { s with calls := .allocate req (.casBump s.pool.bump aligned newEnd) :: rest }) :
    PoolOk { s with
      pool := { s.pool with bump := newEnd },
      calls := .allocate req (.countLive aligned) :: rest } := by
  obtain ⟨hhead, hrest⟩ := forall_mem_cons.mp h.calls
  obtain ⟨hreq, hplace⟩ := hhead
  obtain ⟨hle, rfl, hlen, halign⟩ := place_eq_ok hreq hplace
  have hcarved := h.carved
  have haligned := h.aligned
  rw [held_cons] at hcarved haligned
  have hperm : ((⟨aligned, req⟩ : Region) :: (s.owned ++ rest.filterMap Call.region)).Perm
      (s.owned ++ ⟨aligned, req⟩ :: rest.filterMap Call.region) := perm_middle.symm
  refine ⟨h.capacity, hlen, ?_, ?_, h.counter, h.handed, h.fresh, h.covered, ?_⟩
  · exact (hcarved.carve hle (checkRequest_eq_ok hreq).1).perm (hperm.map Region.block)
  · intro r hr
    rcases mem_cons.mp (hperm.mem_iff.mpr hr) with rfl | hr
    · exact halign
    · exact haligned r hr
  · refine forall_mem_cons.mpr ⟨trivial, ?_⟩
    intro c hc
    exact (hrest c hc).congr rfl rfl rfl

variable {offset : Nat}

/-- There are fewer counted regions than a `usize` can count. -/
theorem live_lt (h : PoolOk { s with calls := .allocate req (.countLive offset) :: rest }) :
    s.pool.live + 1 < 2 ^ 64 := by
  have hlength := h.carved.length_le
  have hcounter := h.counter
  have hcursor : s.pool.bump ≤ s.pool.len := h.cursor
  have hcapacity : s.pool.len < 2 ^ 64 := h.capacity
  have hcount := countP_counted_le rest
  rw [held_cons, length_map, length_append, length_append] at hlength
  rw [countP_cons] at hcounter
  dsimp only [Call.counted, Call.region, AllocatePc.offset, Option.map, Option.toList,
    length_cons, length_nil] at hlength hcounter
  simp only [Bool.false_eq_true, if_false] at hcounter
  omega

/-- The live counter is incremented. -/
theorem count (h : PoolOk { s with calls := .allocate req (.countLive offset) :: rest }) :
    PoolOk { s with
      pool := { s.pool with live := (s.pool.live + 1) % 2 ^ 64 },
      calls := .allocate req (.loadIssued offset) :: rest } := by
  obtain ⟨-, hrest⟩ := forall_mem_cons.mp h.calls
  refine ⟨h.capacity, h.cursor, h.carved, h.aligned, ?_, h.handed, h.fresh, h.covered, ?_⟩
  · have hcounter := h.counter
    rw [countP_cons] at hcounter ⊢
    show (s.pool.live + 1) % 2 ^ 64 = _
    rw [Nat.mod_eq_of_lt h.live_lt]
    exact congrArg (· + 1) hcounter
  · refine forall_mem_cons.mpr ⟨trivial, ?_⟩
    intro c hc
    exact (hrest c hc).congr rfl rfl rfl

/-- The recycled part of the region is cleared. -/
theorem clear {highWater : Nat}
    (h : PoolOk { s with calls := .allocate req (.zeroRecycled offset highWater) :: rest }) :
    PoolOk { s with
      pool := s.pool.zero offset (min (offset + req.size.toNat) highWater),
      calls := .allocate req (.casHighWater offset highWater) :: rest } := by
  obtain ⟨⟨hmark, hzero⟩, hrest⟩ := forall_mem_cons.mp h.calls
  refine ⟨h.capacity, h.cursor, h.carved, h.aligned, h.counter, h.handed, ?_, h.covered, ?_⟩
  · intro i hi
    show (if _ then (0 : UInt8) else s.pool.bytes i) = 0
    split
    · rfl
    · exact h.fresh i hi
  · refine forall_mem_cons.mpr ⟨⟨hmark, ?_⟩, ?_⟩
    · intro i hi
      show (if _ then (0 : UInt8) else s.pool.bytes (offset + i)) = 0
      split
      · rfl
      · rename_i hout
        exact hzero i hi (by omega)
    · intro c hc
      refine (hrest c hc).stable rfl (Nat.le_refl _) ?_
      intro r hr i hi
      -- the cleared range is inside the call's own region
      have hapart := Separate.bytes_apart (h.separate_rest rfl hc hr) hi
      refine if_neg fun hin => hapart ⟨hin.1, ?_⟩
      exact Nat.lt_of_lt_of_le hin.2 (Nat.min_le_left _ _)

/-- The region is returned, with the mark at or above its end. -/
theorem handOut {hw mark : Nat} (h : PoolOk { s with calls := .allocate req (.casHighWater offset hw) :: rest })
    (hmark : s.pool.carvedHighWater ≤ mark) (hstop : offset + req.size.toNat ≤ mark) :
    PoolOk { s with
      pool := { s.pool with carvedHighWater := mark }, calls := rest,
      owned := ⟨offset, req⟩ :: s.owned, handedOut := s.handedOut + 1 } := by
  obtain ⟨-, hrest⟩ := forall_mem_cons.mp h.calls
  have hcarved := h.carved
  have haligned := h.aligned
  rw [held_cons] at hcarved haligned
  have hperm : (s.owned ++ (⟨offset, req⟩ : Region) :: rest.filterMap Call.region).Perm
      (⟨offset, req⟩ :: s.owned ++ rest.filterMap Call.region) := perm_middle
  refine ⟨h.capacity, h.cursor, hcarved.perm (hperm.map _), ?_, ?_, ?_, ?_, ?_, ?_⟩
  · intro r hr
    exact haligned r (hperm.mem_iff.mpr hr)
  · have hcounter := h.counter
    rw [countP_cons] at hcounter
    show s.pool.live = (⟨offset, req⟩ :: s.owned).length + _
    rw [length_cons, Nat.add_right_comm]
    exact hcounter
  · have hhanded := h.handed
    rw [liveRegions_cons] at hhanded
    show s.handedOut + 1 = s.released + (⟨offset, req⟩ :: (s.owned ++ _)).length
    rw [length_cons, ← Nat.add_assoc]
    exact congrArg (· + 1) hhanded
  · intro i hi
    exact h.fresh i (hmark.trans hi)
  · refine forall_mem_cons.mpr ⟨hstop, ?_⟩
    intro r hr
    exact (h.covered r hr).trans hmark
  · intro c hc
    exact (hrest c hc).stable rfl hmark fun _ _ _ _ => rfl

variable {r : Region}

/-- The exchange of the live counter succeeds, for the releasing call's region. -/
theorem countOff (h : PoolOk { s with calls := .release r (.casLive s.pool.live) :: rest }) :
    PoolOk { s with pool := { s.pool with live := s.pool.live - 1 }, calls := rest, released := s.released + 1 } := by
  obtain ⟨-, hrest⟩ := forall_mem_cons.mp h.calls
  have hcarved := h.carved
  have haligned := h.aligned
  rw [held_cons] at hcarved haligned
  have hperm : (s.owned ++ r :: rest.filterMap Call.region).Perm
      (r :: (s.owned ++ rest.filterMap Call.region)) := perm_middle
  refine ⟨h.capacity, h.cursor, (hcarved.perm (hperm.map _)).tail, ?_, ?_, ?_, h.fresh, h.covered, ?_⟩
  · intro r' hr'
    exact haligned r' (hperm.mem_iff.mpr (mem_cons_of_mem _ hr'))
  · have hcounter : s.pool.live = s.owned.length + (rest.countP Call.counted + 1) := by
      have := h.counter
      rw [countP_cons] at this
      exact this
    show s.pool.live - 1 = s.owned.length + rest.countP Call.counted
    omega
  · have hhanded : s.handedOut = s.released + (s.owned ++ r :: rest.filterMap Call.releasing).length := by
      have := h.handed
      rw [liveRegions_cons] at this
      exact this
    rw [perm_middle.length_eq, length_cons] at hhanded
    show s.handedOut = s.released + 1 + (s.owned ++ rest.filterMap Call.releasing).length
    omega
  · intro c hc
    exact (hrest c hc).congr rfl rfl rfl

/-! ### Steps of the system -/

theorem live_pos {pc : ReleasePc} (h : PoolOk { s with calls := .release r pc :: rest }) : 0 < s.pool.live := by
  have hcounter : s.pool.live = s.owned.length + (rest.countP Call.counted + 1) := by
    have := h.counter
    rw [countP_cons] at this
    exact this
  omega

theorem access (h : PoolOk { s with calls := c :: rest }) (spurious : Bool) :
    Access s.pool c (c.step s.pool spurious) := by
  have hhead := (forall_mem_cons.mp h.calls).1
  unfold Call.step
  cases c with
  | allocate req pc =>
    unfold Mem.allocateStep
    cases pc with
    | enter =>
      dsimp only
      split
      · exact .refuse rfl _
      · exact .move rfl rfl rfl ‹_›
    | loadBump =>
      dsimp only
      split
      · exact .refuse rfl _
      · exact .move rfl rfl rfl ⟨hhead, ‹_›⟩
    | casBump current aligned newEnd =>
      dsimp only
      split
      · rename_i hcas
        obtain ⟨rfl, -⟩ := hcas
        exact .carve
      · exact .move rfl rfl rfl hhead.1
    | countLive offset => exact .count
    | loadIssued offset => exact .move rfl rfl rfl trivial
    | casIssued offset issued =>
      dsimp only
      split
      · exact .issue
      · exact .move rfl rfl rfl trivial
    | loadHighWater offset =>
      refine .move rfl rfl rfl ⟨Nat.le_refl _, ?_⟩
      intro i hi hle
      exact h.fresh _ hle
    | zeroRecycled offset highWater => exact .clear
    | casHighWater offset hw =>
      dsimp only
      split
      · rename_i hlt
        split
        · rename_i hcas
          obtain ⟨rfl, -⟩ := hcas
          exact .handOut (Nat.le_of_lt hlt) (Nat.le_refl _)
        · exact .move rfl rfl rfl ⟨Nat.le_refl _, hhead.2⟩
      · rename_i hge
        exact .handOut (Nat.le_refl _) ((Nat.le_of_not_lt hge).trans hhead.1)
  | release r pc =>
    unfold Mem.releaseStep
    cases pc with
    | loadLive => exact .move rfl rfl rfl h.live_pos
    | casLive current =>
      dsimp only
      split
      · rename_i hcas
        obtain ⟨rfl, -⟩ := hcas
        exact .countOff
      · exact .move rfl rfl rfl h.live_pos

theorem settle {out : Pool × Progress} (h : PoolOk { s with calls := c :: rest })
    (hout : Access s.pool c out) : PoolOk (s.settle rest out) := by
  cases hout with
  | refuse hregion e => exact h.refuse hregion
  | move hregion hcounted hreleasing hok => exact h.replace hregion hcounted hreleasing hok
  | carve => exact h.carve
  | count => exact h.count
  | @issue req offset issued total =>
    have hmoved : PoolOk { s with calls := .allocate req (.loadHighWater offset) :: rest } :=
      h.replace rfl rfl rfl trivial
    exact ⟨hmoved.capacity, hmoved.cursor, hmoved.carved, hmoved.aligned, hmoved.counter,
      hmoved.handed, hmoved.fresh, hmoved.covered, fun c hc => (hmoved.calls c hc).congr rfl rfl rfl⟩
  | clear => exact h.clear
  | handOut hmark hstop => exact h.handOut hmark hstop
  | countOff => exact h.countOff

/-- The call that makes the next access stands at the head. -/
theorem first (h : PoolOk s) (hc : s.calls[i]? = some c) : PoolOk { s with calls := c :: s.calls.eraseIdx i } :=
  h.perm (cons_eraseIdx_perm hc).symm

/-- A caller starts to give a region back. -/
theorem startRelease (h : PoolOk s) (hr : s.owned[i]? = some r) :
    PoolOk { s with owned := s.owned.eraseIdx i, calls := .release r .loadLive :: s.calls } := by
  have howned := cons_eraseIdx_perm hr
  have hmove : ∀ others : List Region, (s.owned ++ others).Perm
      (s.owned.eraseIdx i ++ r :: others) := fun others =>
    (howned.symm.append_right others).trans perm_middle.symm
  have hlength : s.owned.length = (s.owned.eraseIdx i).length + 1 := howned.length_eq.symm
  refine ⟨h.capacity, h.cursor, h.carved.perm ((hmove _).map _), ?_, ?_, ?_, h.fresh, ?_, ?_⟩
  · intro r hr
    exact h.aligned r ((hmove _).mem_iff.mpr hr)
  · show s.pool.live = (s.owned.eraseIdx i).length + _
    rw [h.counter, countP_cons, hlength]
    simp only [Call.counted, if_true]
    omega
  · rw [h.handed]
    exact congrArg _ (hmove _).length_eq
  · intro r hr
    exact h.covered r (howned.mem_iff.mp (mem_cons_of_mem _ hr))
  · exact forall_mem_cons.mpr ⟨trivial, h.calls⟩

/-- A caller writes into a region it owns. -/
theorem write (h : PoolOk s) (hr : r ∈ s.owned) (hoffset : offset < r.size) (value : UInt8) :
    PoolOk { s with pool := { s.pool with bytes := Function.update s.pool.bytes (r.offset + offset) value } } := by
  refine ⟨h.capacity, h.cursor, h.carved, h.aligned, h.counter, h.handed, ?_, h.covered, ?_⟩
  · intro i hi
    have hcovered := h.covered r hr
    have hne : i ≠ r.offset + offset := by
      unfold Region.stop at hcovered
      change s.pool.carvedHighWater ≤ i at hi
      omega
    exact (Function.update_of_ne hne _ _).trans (h.fresh i hi)
  · intro c hc
    refine (h.calls c hc).stable rfl (Nat.le_refl _) ?_
    intro r' hr' i hi
    refine Function.update_of_ne ?_ _ _
    intro heq
    refine Separate.bytes_apart (h.separate_call hr hc hr') hi ⟨by omega, ?_⟩
    unfold Region.stop
    omega

theorem reset (h : PoolOk s) (hcalls : s.calls = []) {p : Pool} (hreset : s.pool.reset = .ok p) :
    PoolOk { s with pool := p } ∧ s.owned = [] := by
  unfold Pool.reset at hreset
  split at hreset
  · cases hreset
  · rename_i hlive
    cases hreset
    have hcounter := h.counter
    rw [hcalls, Decidable.not_not.mp hlive] at hcounter
    have howned : s.owned = [] := eq_nil_of_length_eq_zero (by simpa using hcounter.symm)
    have hheld : s.held = [] := by simp [PoolState.held, howned, hcalls]
    refine ⟨⟨h.capacity, Nat.zero_le _, ?_, h.aligned, h.counter, h.handed, h.fresh, h.covered, ?_⟩, howned⟩
    · show Carved 0 (s.held.map Region.block)
      rw [hheld]
      exact Carved.nil 0
    · intro c hc
      exact (h.calls c hc).congr rfl rfl rfl

theorem step (h : PoolOk s) (a : PoolAction) : PoolOk (s.step a) := by
  have hstep := s.step_cases a
  generalize s.step a = s' at hstep ⊢
  cases hstep with
  | stay => exact h
  | enter req =>
    exact ⟨h.capacity, h.cursor, h.carved, h.aligned, h.counter, h.handed, h.fresh, h.covered,
      forall_mem_cons.mpr ⟨trivial, h.calls⟩⟩
  | startRelease hr => exact h.startRelease hr
  | advance hc spurious => exact (h.first hc).settle ((h.first hc).access spurious)
  | write hr hoffset value => exact h.write hr hoffset value
  | reset hcalls hreset => exact (h.reset hcalls hreset).1

theorem init (capacity : UInt64) : PoolOk (PoolState.init capacity.toNat) where
  capacity := UInt64.toNat_lt capacity
  cursor := Nat.zero_le _
  carved := Carved.nil 0
  aligned := nofun
  counter := rfl
  handed := rfl
  fresh := fun _ _ => rfl
  covered := nofun
  calls := nofun

/-- **Every reachable state is fine.** -/
theorem run (capacity : UInt64) (schedule : List PoolAction) :
    PoolOk ((PoolState.init capacity.toNat).run schedule) :=
  run_keeps (fun _ a h => h.step a) (init capacity) schedule

end PoolOk

end TensorWasm.Mem
