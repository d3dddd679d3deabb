import TensorWasm.Mem.UnifiedBuffer

/-!
# The tenant's GPU counter and its buffers

The counter should be the value it started from plus the charges of the buffers that are alive. Both ways
to take a charge back refund a size and not the charge: `drop` the length the buffer shows at that time,
which `try_grow_in_place` may have lowered, and a failed construction the size asked for, of which a
counter without a cap takes less when it saturates. The account stays right throughout a run exactly if
each refund takes off what was charged (`gpu_accounting_iff`).
-/

namespace TensorWasm.Mem

open Lib Tenants
open ChargedBuffer (charged)

/-- The charges of the live buffers are what the counter has gained since the start. -/
def Accounted (start : UInt64) (s : BufferState) : Prop :=
  s.ctx.gpuBytesInUse.toNat = start.toNat + (s.buffers.map charged).sum

instance (start : UInt64) (s : BufferState) : Decidable (Accounted start s) :=
  inferInstanceAs (Decidable (_ = _))

/-- The refund of a step takes off what was charged. A refund never takes off more than the counter
holds. -/
def RefundsCharge (s : BufferState) : BufferAction → Prop
  | .construct _ (.ok ()) => True
  | .construct size (.error _) =>
    s.ctx.gpuMemoryBytesCap = none → s.ctx.gpuBytesInUse.toNat + size.toNat < 2 ^ 64
  | .resize _ _ => True
  | .drop i => ∀ c, s.buffers[i]? = some c → min c.buffer.size.toNat s.ctx.gpuBytesInUse.toNat = c.charged

/-! ## Calls on the counter -/

@[simp] theorem gpuCall_release (ctx : TenantContext) (bytes : UInt64) :
    (gpuCall ctx (.release bytes)).1 = { ctx with gpuBytesInUse := saturatingSub ctx.gpuBytesInUse bytes } :=
  rfl

/-- What a charge can do: be refused, add its bytes, or saturate a counter without a cap. -/
inductive Charge (ctx : TenantContext) (n : UInt64) : TenantContext × CallResult → Prop
  | refused (e : TensorWasmError) (hcap : ctx.gpuMemoryBytesCap ≠ none) : Charge ctx n (ctx, .rejected e)
  | added {next : UInt64} (hnext : next.toNat = ctx.gpuBytesInUse.toNat + n.toNat) :
    Charge ctx n ({ ctx with gpuBytesInUse := next }, .consumed next)
  | saturated (hcap : ctx.gpuMemoryBytesCap = none)
      (hover : 2 ^ 64 ≤ ctx.gpuBytesInUse.toNat + n.toNat) :
    Charge ctx n
      ({ ctx with gpuBytesInUse := gpuBytesOverflowSentinel }, .consumed gpuBytesOverflowSentinel)

theorem gpuCall_of_refuse {ctx : TenantContext} {n : UInt64} {answer : CallResult}
    (h : consumeGpuBytes ctx.gpuMemoryBytesCap n ctx.gpuBytesInUse = .refuse answer) :
    gpuCall ctx (.consume n) = (ctx, answer) := by
  simp [gpuCall, TenantContext.gpuDecision, h]

theorem gpuCall_of_exchange {ctx : TenantContext} {n next : UInt64} {answer : CallResult}
    (h : consumeGpuBytes ctx.gpuMemoryBytesCap n ctx.gpuBytesInUse = .exchange next answer) :
    gpuCall ctx (.consume n) = ({ ctx with gpuBytesInUse := next }, answer) := by
  simp [gpuCall, TenantContext.gpuDecision, h]

theorem gpuCall_consume (ctx : TenantContext) (n : UInt64) : Charge ctx n (gpuCall ctx (.consume n)) := by
  cases hcap : ctx.gpuMemoryBytesCap with
  | none =>
    cases hadd : Lib.checkedAdd ctx.gpuBytesInUse n with
    | none =>
      rw [gpuCall_of_exchange (by simp only [consumeGpuBytes, hcap, hadd]; rfl)]
      exact .saturated hcap (le_of_checkedAdd_eq_none hadd)
    | some next =>
      rw [gpuCall_of_exchange (by simp only [consumeGpuBytes, hcap, hadd]; rfl)]
      exact .added (toNat_of_checkedAdd hadd)
  | some cap =>
    have hsome : ctx.gpuMemoryBytesCap ≠ none := by simp [hcap]
    cases hadd : Lib.checkedAdd ctx.gpuBytesInUse n with
    | none =>
      rw [gpuCall_of_refuse (by simp only [consumeGpuBytes, hcap, hadd]; rfl)]
      exact .refused _ hsome
    | some next =>
      by_cases hover : cap < next
      · rw [gpuCall_of_refuse (by simp only [consumeGpuBytes, hcap, hadd, hover, if_true]; rfl)]
        exact .refused _ hsome
      · rw [gpuCall_of_exchange (by simp only [consumeGpuBytes, hcap, hadd, hover, if_false]; rfl)]
        exact .added (toNat_of_checkedAdd hadd)

/-! ## One step -/

variable {start : UInt64} {s : BufferState}

/-- A construction charges what it adds, so it can only go wrong in taking a saturated charge back. -/
theorem accounted_construct_iff (h : Accounted start s) (size : UInt64) (allocated : Except String Unit) :
    Accounted start (s.construct size allocated) ↔ RefundsCharge s (.construct size allocated) := by
  have hlt := s.ctx.gpuBytesInUse.toNat_lt
  have hbound := size.toNat_lt
  unfold BufferState.construct UnifiedBuffer.newWithTenantContext
  by_cases hsize : size = 0
  · subst hsize
    rw [if_pos rfl]
    refine ⟨fun _ => ?_, fun _ => h⟩
    cases allocated with
    | ok u => trivial
    | error e => exact fun _ => hlt
  · rw [if_neg hsize]
    have hcharge := gpuCall_consume s.ctx size
    generalize gpuCall s.ctx (.consume size) = out at hcharge
    cases hcharge with
    | refused e hcap =>
      refine ⟨fun _ => ?_, fun _ => h⟩
      cases allocated with
      | ok u => trivial
      | error e => exact fun hnone => absurd hnone hcap
    | @added next hnext =>
      cases allocated with
      | ok u =>
        refine ⟨fun _ => trivial, fun _ => ?_⟩
        simp only [Accounted, List.map_cons, List.sum_cons, hnext] at h ⊢
        omega
      | error e =>
        refine ⟨fun _ _ => hnext ▸ next.toNat_lt, fun _ => ?_⟩
        simp only [Accounted, gpuCall_release, toNat_saturatingSub, hnext] at h ⊢
        omega
    | saturated hcap hover =>
      have hmax : gpuBytesOverflowSentinel.toNat = 2 ^ 64 - 1 := rfl
      cases allocated with
      | ok u =>
        refine ⟨fun _ => trivial, fun _ => ?_⟩
        simp only [Accounted, List.map_cons, List.sum_cons, hmax] at h ⊢
        omega
      | error e =>
        -- the counter ends below where it was, and the condition excludes the step
        constructor
        · intro hafter
          simp only [Accounted, gpuCall_release, toNat_saturatingSub, hmax] at h hafter
          omega
        · intro hfits
          exact absurd (hfits hcap) (Nat.not_lt_of_le hover)

theorem sum_eraseIdx {l : List Nat} {i n : Nat} (h : l[i]? = some n) : n + (l.eraseIdx i).sum = l.sum := by
  obtain ⟨hi, rfl⟩ := List.getElem?_eq_some_iff.mp h
  exact (List.getElem_cons_eraseIdx_perm hi).sum_nat

/-- A drop keeps the account exactly if it takes off what was charged. -/
theorem accounted_drop_iff (h : Accounted start s) (i : Nat) :
    Accounted start (s.drop i) ↔ RefundsCharge s (.drop i) := by
  unfold BufferState.drop
  cases hc : s.buffers[i]? with
  | none =>
    refine ⟨fun _ c hc' => ?_, fun _ => h⟩
    exact nomatch hc.symm.trans hc'
  | some c =>
    have hcond : RefundsCharge s (.drop i) ↔ min c.buffer.size.toNat s.ctx.gpuBytesInUse.toNat = c.charged := by
      simp [RefundsCharge, hc]
    have hsum : c.charged + ((s.buffers.eraseIdx i).map charged).sum = (s.buffers.map charged).sum := by
      rw [← List.eraseIdx_map]
      exact sum_eraseIdx (by rw [List.getElem?_map, hc]; rfl)
    rw [hcond]
    simp only [Accounted, UnifiedBuffer.drop, gpuCall_release, toNat_saturatingSub] at h ⊢
    omega

/-- A change of length is no matter of the account. -/
theorem accounted_resize (h : Accounted start s) (uvmBacked : Bool) (i : Nat) (newSize : UInt64) :
    Accounted start (s.resize uvmBacked i newSize) := by
  unfold BufferState.resize
  cases hc : s.buffers[i]? with
  | none => exact h
  | some c =>
    have hsame : ∀ b : UnifiedBuffer, (s.buffers.set i { c with buffer := b }).map charged =
        s.buffers.map charged := by
      intro b
      obtain ⟨hi, rfl⟩ := List.getElem?_eq_some_iff.mp hc
      rw [List.map_set]
      refine List.ext_getElem? fun j => ?_
      rw [List.getElem?_set]
      split
      · rename_i hij
        subst hij
        simp [hi]
      · rfl
    unfold Accounted at h ⊢
    dsimp only
    rw [hsame]
    exact h

theorem accounted_step_iff (h : Accounted start s) (uvmBacked : Bool) (a : BufferAction) :
    Accounted start (s.step uvmBacked a) ↔ RefundsCharge s a := by
  cases a with
  | construct size allocated => exact accounted_construct_iff h size allocated
  | resize i newSize => exact ⟨fun _ => trivial, fun _ => accounted_resize h uvmBacked i newSize⟩
  | drop i => exact accounted_drop_iff h i

/-! ## Runs -/

/-- **The account is right throughout a run exactly if every refund takes off what was charged**, for
every tenant, cap, starting value and build. -/
theorem gpu_accounting_iff (uvmBacked : Bool) (ctx : TenantContext) (actions : List BufferAction) :
    Throughout (BufferState.step uvmBacked) (Accounted ctx.gpuBytesInUse) ⟨ctx, []⟩ actions ↔
      Along (BufferState.step uvmBacked) RefundsCharge ⟨ctx, []⟩ actions := by
  have hstep : ∀ s a, Accounted ctx.gpuBytesInUse s →
      (Accounted ctx.gpuBytesInUse (BufferState.step uvmBacked s a) ↔ RefundsCharge s a) :=
    fun _ a h => accounted_step_iff h uvmBacked a
  have hstart : Accounted ctx.gpuBytesInUse ⟨ctx, []⟩ := rfl
  exact throughout_iff_along hstep hstart actions

/-- Sixty-four bytes are charged, the buffer is shrunk to sixteen, and its drop leaves forty-eight in the
counter of a tenant that has no buffer any more. -/
theorem shrunk_drop_leaks :
    let ctx := TenantContext.build 1 0 (some 1048576)
    let s := BufferState.run false ⟨ctx, []⟩ [.construct 64 (.ok ()), .resize 0 16, .drop 0]
    s.buffers = [] ∧ ctx.gpuBytesInUse = 0 ∧ s.ctx.gpuBytesInUse = 48 ∧ ¬ Accounted ctx.gpuBytesInUse s := by
  refine ⟨rfl, rfl, rfl, by decide⟩

end TensorWasm.Mem
