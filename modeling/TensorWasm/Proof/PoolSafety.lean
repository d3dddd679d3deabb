import TensorWasm.Proof.Pool

/-!
# The pool refines an atomic region allocator

Seen from outside, the pool is a set of live regions over a slab of bytes. `SlabStep` says what may
happen to that view in one step: a fresh, aligned, zero-filled region appears, a region is written,
a region disappears, or nothing visible happens. Every step of every schedule is one of these
(`step_refines`), although `allocate` takes many accesses that interleave with other calls.
-/

namespace TensorWasm.Mem

open Lib List

/-- The slab as its callers see it. -/
structure Slab where
  live : List Region
  bytes : Nat → UInt8

/-- The contents of the regions are the same. -/
def SameOn (regions : List Region) (bytes bytes' : Nat → UInt8) : Prop :=
  ∀ r ∈ regions, ∀ i < r.size, bytes' (r.offset + i) = bytes (r.offset + i)

/-- What may happen to a slab of `len` bytes. The order of the regions is of no interest. -/
inductive SlabStep (len : Nat) : Slab → Slab → Prop where
  | idle {live live' : List Region} {bytes bytes' : Nat → UInt8} (hlive : live'.Perm live)
      (hbytes : SameOn live bytes bytes') : SlabStep len ⟨live, bytes⟩ ⟨live', bytes'⟩
  | handOut {live live' : List Region} {bytes bytes' : Nat → UInt8} (r : Region)
      (hlive : live'.Perm (r :: live)) (hinside : r.stop ≤ len)
      (haligned : r.offset % r.request.align.toNat = 0)
      (hseparate : ∀ r' ∈ live, Separate r.block r'.block)
      (hzero : ∀ i < r.size, bytes' (r.offset + i) = 0) (hbytes : SameOn live bytes bytes') :
    SlabStep len ⟨live, bytes⟩ ⟨live', bytes'⟩
  | write {live live' : List Region} {bytes : Nat → UInt8} (hlive : live'.Perm live) {r : Region}
      (hr : r ∈ live) {offset : Nat} (hoffset : offset < r.size) (value : UInt8) :
    SlabStep len ⟨live, bytes⟩ ⟨live', Function.update bytes (r.offset + offset) value⟩
  | release {live live' : List Region} {bytes : Nat → UInt8} (r : Region)
      (hlive : live.Perm (r :: live')) : SlabStep len ⟨live, bytes⟩ ⟨live', bytes⟩

def PoolState.slab (s : PoolState) : Slab := ⟨s.liveRegions, s.pool.bytes⟩

theorem SameOn.refl (regions : List Region) (bytes : Nat → UInt8) : SameOn regions bytes bytes :=
  fun _ _ _ _ => rfl

theorem SameOn.perm {regions regions' : List Region} {bytes bytes' : Nat → UInt8} (h : SameOn regions bytes bytes')
    (hperm : regions'.Perm regions) : SameOn regions' bytes bytes' :=
  fun r hr => h r (hperm.mem_iff.mp hr)

theorem SlabStep.perm_left {len : Nat} {live live₀ : List Region} {bytes : Nat → UInt8} {after : Slab}
    (h : SlabStep len ⟨live₀, bytes⟩ after) (hperm : live.Perm live₀) : SlabStep len ⟨live, bytes⟩ after := by
  cases h with
  | idle hlive hbytes => exact .idle (hlive.trans hperm.symm) (hbytes.perm hperm)
  | handOut r hlive hinside haligned hseparate hzero hbytes =>
    exact .handOut r (hlive.trans (hperm.symm.cons r)) hinside haligned
      (fun r' hr' => hseparate r' (hperm.mem_iff.mp hr')) hzero (hbytes.perm hperm)
  | write hlive hr hoffset value =>
    exact .write (hlive.trans hperm.symm) (hperm.mem_iff.mpr hr) hoffset value
  | release r hlive => exact .release r (hperm.trans hlive)

/-! ## The accesses of one call -/

namespace PoolOk

variable {s : PoolState} {c : Call} {rest : List Call} (h : PoolOk { s with calls := c :: rest })

include h

/-- The reserved region of a call is apart from every live region. -/
theorem separate_live {r : Region} (hc : c.region = some r) (hnot : c.releasing = none) :
    ∀ r' ∈ ({ s with calls := c :: rest } : PoolState).liveRegions, Separate r.block r'.block := by
  intro r' hr'
  rw [liveRegions_cons, hnot] at hr'
  rcases mem_append.mp hr' with howned | hreleasing
  · exact (h.separate_call howned mem_cons_self hc).symm
  · obtain ⟨c', hc', hr'⟩ := mem_filterMap.mp hreleasing
    cases c' with
    | allocate req pc => exact nomatch hr'
    | release r'' pc => exact h.separate_rest hc hc' hr'

theorem settle_refines {out : Pool × Progress} (hout : Access s.pool c out) :
    SlabStep s.pool.len ({ s with calls := c :: rest } : PoolState).slab (s.settle rest out).slab := by
  cases hout with
  | refuse hregion e =>
    have hlive : ({ s with calls := c :: rest } : PoolState).liveRegions =
        ({ s with calls := rest } : PoolState).liveRegions := by
      rw [liveRegions_cons, (Call.of_region_none hregion).2]
      rfl
    exact .idle (.of_eq hlive.symm) (.refl _ _)
  | @move _ c' hregion hcounted hreleasing hok =>
    have hlive : ({ s with calls := c' :: rest } : PoolState).liveRegions =
        ({ s with calls := c :: rest } : PoolState).liveRegions := by
      rw [liveRegions_cons, liveRegions_cons, hreleasing]
    exact .idle (.of_eq hlive) (.refl _ _)
  | carve | count | issue => exact .idle (.refl _) (.refl _ _)
  | clear =>
    refine .idle (.refl _) ?_
    intro r hr i hi
    exact if_neg fun hin => Separate.bytes_apart (h.separate_live rfl rfl r hr) hi
      ⟨hin.1, Nat.lt_of_lt_of_le hin.2 (Nat.min_le_left _ _)⟩
  | @handOut req o hw mark hmark hstop =>
    have hmem : (⟨o, req⟩ : Region) ∈
        ({ s with calls := .allocate req (.casHighWater o hw) :: rest } : PoolState).held := by
      rw [held_cons]
      exact mem_append_right _ mem_cons_self
    have hbelow := h.carved.below _ (mem_map_of_mem hmem)
    exact .handOut ⟨o, req⟩ (.refl _) (hbelow.trans h.cursor) (h.aligned _ hmem)
      (h.separate_live rfl rfl) (forall_mem_cons.mp h.calls).1.2 (.refl _ _)
  | @countOff r => exact .release r perm_middle

omit h in
/-- **Every step of a reachable pool is a step of the atomic allocator.** -/
theorem step_refines (h : PoolOk s) (a : PoolAction) : SlabStep s.pool.len s.slab (s.step a).slab := by
  have hstep := s.step_cases a
  generalize s.step a = s' at hstep ⊢
  cases hstep with
  | stay | enter req => exact .idle (.refl _) (.refl _ _)
  | startRelease hr =>
    refine .idle ?_ (.refl _ _)
    exact perm_middle.trans ((cons_eraseIdx_perm hr).append_right _)
  | advance hc spurious =>
    have hlive := (cons_eraseIdx_perm hc).symm.filterMap Call.releasing
    exact ((h.first hc).settle_refines ((h.first hc).access spurious)).perm_left
      (hlive.append_left s.owned)
  | write hr hoffset value => exact .write (.refl _) (mem_append_left _ hr) hoffset value
  | reset hcalls hreset =>
    unfold Pool.reset at hreset
    split at hreset
    · cases hreset
    · cases hreset
      exact .idle (.refl _) (.refl _ _)

/-! ## The cursor -/

/-- No access moves the cursor back. -/
theorem access_cursor (spurious : Bool) : s.pool.bump ≤ (c.step s.pool spurious).1.bump := by
  have haccess := h.access spurious
  generalize c.step s.pool spurious = out at haccess ⊢
  cases haccess with
  | carve =>
    obtain ⟨hreq, hplace⟩ := (forall_mem_cons.mp h.calls).1
    obtain ⟨hle, rfl, -, -⟩ := place_eq_ok hreq hplace
    exact Nat.le_add_right_of_le hle
  | _ => exact Nat.le_refl _

omit h

theorem settle_pool (s : PoolState) (rest : List Call) (out : Pool × Progress) :
    (s.settle rest out).pool = out.1 := by
  obtain ⟨p, progress⟩ := out
  cases progress <;> rfl

/-- **The cursor goes back only while no region is live.** -/
theorem rewound (h : PoolOk s) (a : PoolAction) (hback : (s.step a).pool.bump < s.pool.bump) :
    s.liveRegions = [] := by
  have hstep := s.step_cases a
  generalize s.step a = s' at hstep hback
  cases hstep with
  | stay | enter req | startRelease hr | write hr hoffset value => exact absurd hback (Nat.lt_irrefl _)
  | advance hc spurious =>
    rw [settle_pool] at hback
    exact absurd hback (Nat.not_lt_of_le ((h.first hc).access_cursor spurious))
  | reset hcalls hreset =>
    rw [PoolState.liveRegions, (h.reset hcalls hreset).2, hcalls]
    rfl

end PoolOk

/-! ## The whole -/

/-- What holds of the pool in a state and of the next step from it. -/
structure PoolInvariant (s : PoolState) : Prop where
  disjoint : s.liveRegions.Pairwise fun r r' => r.stop ≤ r'.offset ∨ r'.stop ≤ r.offset
  inside : ∀ r ∈ s.liveRegions, r.stop ≤ s.pool.len
  aligned : ∀ r ∈ s.liveRegions, r.offset % r.request.align.toNat = 0
  zeroed : ∀ a, ∀ r ∈ (s.step a).liveRegions, r ∉ s.liveRegions →
    ∀ i < r.size, (s.step a).pool.bytes (r.offset + i) = 0
  counter : s.pool.live + s.released = s.handedOut + s.counting
  rewound : ∀ a, (s.step a).pool.bump < s.pool.bump → s.liveRegions = []

/-- A region that becomes live is zero-filled. -/
theorem SlabStep.zeroed {len : Nat} {before after : Slab} (h : SlabStep len before after) {r : Region}
    (hr : r ∈ after.live) (hnew : r ∉ before.live) : ∀ i < r.size, after.bytes (r.offset + i) = 0 := by
  cases h with
  | idle hlive hbytes => exact absurd (hlive.mem_iff.mp hr) hnew
  | handOut r' hlive hinside haligned hseparate hzero hbytes =>
    rcases mem_cons.mp (hlive.mem_iff.mp hr) with rfl | hold
    · exact hzero
    · exact absurd hold hnew
  | write hlive hr' hoffset value => exact absurd (hlive.mem_iff.mp hr) hnew
  | release r' hlive => exact absurd (hlive.mem_iff.mpr (mem_cons_of_mem _ hr)) hnew

theorem PoolOk.invariant {s : PoolState} (h : PoolOk s) : PoolInvariant s where
  disjoint := by
    have hseparate := h.carved.separate.sublist (s.liveRegions_sublist.map Region.block)
    exact pairwise_map.mp hseparate
  inside := by
    intro r hr
    have hbelow := h.carved.below _ (mem_map_of_mem (s.liveRegions_sublist.subset hr))
    exact hbelow.trans h.cursor
  aligned := fun r hr => h.aligned r (s.liveRegions_sublist.subset hr)
  zeroed := fun a _ hr hnew => (h.step_refines a).zeroed hr hnew
  counter := by
    have hcalls := countP_counted s.calls
    rw [h.counter, h.handed, hcalls, PoolState.counting, PoolState.liveRegions, length_append]
    omega
  rewound := h.rewound

/-- **The pool invariant**, under every interleaving of calls, writes, releases and resets. -/
theorem pool_invariant (capacity : UInt64) (schedule : List PoolAction) :
    PoolInvariant ((PoolState.init capacity.toNat).run schedule) :=
  (PoolOk.run capacity schedule).invariant

/-- Between its count and its return an `allocate` call is in the live counter, although no region
has been handed out. -/
theorem live_counts_before_handOut :
    ∃ schedule, ((PoolState.init 64).run schedule).pool.live = 1 ∧
      ((PoolState.init 64).run schedule).handedOut = 0 ∧ ((PoolState.init 64).run schedule).released = 0 :=
  ⟨[.allocate ⟨8, 8⟩, .advance 0 false, .advance 0 false, .advance 0 false, .advance 0 false],
    by decide, by decide, by decide⟩

/-! ## Whole runs -/

theorem PoolOk.step_len {s : PoolState} (h : PoolOk s) (a : PoolAction) : (s.step a).pool.len = s.pool.len := by
  have hstep := s.step_cases a
  generalize s.step a = s' at hstep ⊢
  cases hstep with
  | stay | enter req | startRelease hr | write hr hoffset value => rfl
  | @advance i c hc spurious =>
    rw [PoolOk.settle_pool]
    have haccess := (h.first hc).access spurious
    generalize c.step s.pool spurious = out at haccess ⊢
    cases haccess <;> rfl
  | reset hcalls hreset =>
    unfold Pool.reset at hreset
    split at hreset
    · cases hreset
    · cases hreset
      rfl

/-- **The pool refines the atomic allocator** of its capacity: from an empty slab, whatever calls are under
way, the next step of any of them is one of its steps. -/
theorem pool_refines_atomic (capacity : UInt64) :
    (PoolState.init capacity.toNat).slab = ⟨[], fun _ => 0⟩ ∧
      ∀ schedule a, SlabStep capacity.toNat ((PoolState.init capacity.toNat).run schedule).slab
        (((PoolState.init capacity.toNat).run schedule).step a).slab := by
  refine ⟨rfl, fun schedule a => ?_⟩
  have hlen : ((PoolState.init capacity.toNat).run schedule).pool.len = capacity.toNat := by
    refine (run_keeps (P := fun s => PoolOk s ∧ s.pool.len = capacity.toNat) ?_ ?_ schedule).2
    · intro s a h
      exact ⟨h.1.step a, (h.1.step_len a).trans h.2⟩
    · exact ⟨PoolOk.init capacity, rfl⟩
  have hone := (PoolOk.run capacity schedule).step_refines a
  rwa [hlen] at hone

end TensorWasm.Mem
