import Mathlib.Data.Fintype.BigOperators
import TensorWasm.Tenant.Context

/-!
# The quota counters under every schedule

Consume and release calls of one tenant race for its counter. Whatever their order, the counter stays
within the quota and is what the admitted calls have put in less what the releases say they took out.
-/

namespace TensorWasm.Tenants

open Lib
open Race (added answer)
open Decision (exchange)

/-! ## The arithmetic of one exchange -/

/-- What a release reports is what it takes away. -/
theorem toNat_released (current bytes : UInt64) :
    (current - saturatingSub current bytes).toNat = min current.toNat bytes.toNat := by
  rw [UInt64.toNat_sub_of_le _ _ (saturatingSub_le current bytes), toNat_saturatingSub]
  omega

/-- A consume puts its amount in, within the limit, or is refused. -/
theorem consumeCas_cases (n limit current : UInt64) :
    (∃ next, consumeCas n limit current = .exchange next (.consumed next) ∧
        next.toNat = current.toNat + n.toNat ∧ next ≤ limit) ∨
      consumeCas n limit current = .refuse (.rejected (.memoryExhausted n limit)) := by
  unfold consumeCas
  cases hadd : checkedAdd current n with
  | none => exact .inr rfl
  | some next =>
    simp only
    split
    · next hle => exact .inl ⟨next, rfl, toNat_of_checkedAdd hadd, hle⟩
    · exact .inr rfl

/-! ## All schedules -/

section Runs

variable {ι : Type} [DecidableEq ι] (ctx : TenantContext) (calls : ι → Call)

/-- The calls on the host memory of a tenant that has just been built, under a schedule. -/
def quotaRun (moves : List (ι × Bool)) : Race ι UInt64 :=
  run (Race.step fun i => ctx.decision (calls i)) (Race.start 0) moves

/-- The calls on its GPU memory. -/
def gpuRun (moves : List (ι × Bool)) : Race ι UInt64 :=
  run (Race.step fun i => ctx.gpuDecision (calls i)) (Race.start 0) moves

/-- What a call has returned. -/
def quotaResult (moves : List (ι × Bool)) (i : ι) : Option CallResult :=
  answer (fun i => ctx.decision (calls i)) (quotaRun ctx calls moves) i

/-- What a call has been admitted for. -/
def Call.admitted : Call → Option CallResult → Nat
  | .consume n, some (.consumed _) => n.toNat
  | _, _ => 0

/-- What a call reports as released. -/
def reported : Option CallResult → Nat
  | some (.released outcome _) => outcome.released.toNat
  | _ => 0

variable {ctx calls}

theorem quotaRun_le (moves : List (ι × Bool)) : (quotaRun ctx calls moves).cell ≤ ctx.memoryQuotaBytes := by
  refine Race.run_keeps (P := fun cell => cell ≤ ctx.memoryQuotaBytes) ?_ (UInt64.zero_le) moves
  intro i seen next answer hdecision hseen
  cases hcall : calls i with
  | consume n =>
    rw [hcall] at hdecision
    rcases consumeCas_cases n ctx.memoryQuotaBytes seen with ⟨next', hexchange, -, hle⟩ | hrefuse
    · obtain ⟨rfl, -⟩ := exchange.inj (hexchange.symm.trans hdecision)
      exact hle
    · exact nomatch hrefuse.symm.trans hdecision
  | release bytes =>
    rw [hcall] at hdecision
    obtain ⟨rfl, -⟩ := exchange.inj hdecision
    exact UInt64.le_trans (saturatingSub_le seen bytes) hseen

omit [DecidableEq ι] in
/-- What a call adds to the counter, by its own account. -/
theorem added_eq (i : ι) (r : Race ι UInt64) :
    added (fun i => ctx.decision (calls i)) (fun cell => (cell.toNat : Int)) i (r.phase i) =
      (calls i).admitted (answer (fun i => ctx.decision (calls i)) r i) -
        reported (answer (fun i => ctx.decision (calls i)) r i) := by
  cases hphase : r.phase i with
  | ready | holding seen =>
    simp only [added, answer, hphase, reported]
    cases calls i <;> rfl
  | ended seen =>
    cases hcall : calls i with
    | consume n =>
      simp only [added, answer, hphase, hcall, TenantContext.decision]
      rcases consumeCas_cases n ctx.memoryQuotaBytes seen with ⟨next, hexchange, hnext, -⟩ | hrefuse
      · simp only [hexchange, Decision.answer, Call.admitted, reported, hnext]
        omega
      · simp only [hrefuse, Decision.answer, Call.admitted, reported]
        omega
    | release bytes =>
      simp only [added, answer, hphase, hcall, TenantContext.decision, releaseCas,
        Decision.answer, Call.admitted, reported, toNat_saturatingSub, toNat_released]
      omega

theorem quotaRun_balance [Fintype ι] (moves : List (ι × Bool)) :
    ((quotaRun ctx calls moves).cell.toNat : Int) =
      ∑ i, ((calls i).admitted (quotaResult ctx calls moves i) : Int) -
        ∑ i, (reported (quotaResult ctx calls moves i) : Int) := by
  have hbalance := Race.run_balance (fun i => ctx.decision (calls i))
    (fun cell : UInt64 => (cell.toNat : Int)) 0 moves
  rw [← Finset.sum_sub_distrib]
  refine hbalance.trans ?_
  rw [show ((0 : UInt64).toNat : Int) = 0 from rfl, zero_add]
  exact Finset.sum_congr rfl fun i _ => added_eq i _

/-- With a cap, the counter of GPU memory is bounded as that of host memory is. -/
theorem gpuRun_le {cap : UInt64} (hcap : ctx.gpuMemoryBytesCap = some cap) (moves : List (ι × Bool)) :
    (gpuRun ctx calls moves).cell ≤ cap := by
  refine Race.run_keeps (P := fun cell => cell ≤ cap) ?_ UInt64.zero_le moves
  intro i seen next answer hdecision hseen
  cases hcall : calls i with
  | consume n =>
    simp only [hcall, TenantContext.gpuDecision, hcap, consumeGpuBytes] at hdecision
    split at hdecision
    · split at hdecision
      · cases hdecision
      · next hle =>
        obtain ⟨rfl, -⟩ := exchange.inj hdecision
        exact UInt64.not_lt.mp hle
    · cases hdecision
  | release bytes =>
    rw [hcall] at hdecision
    obtain ⟨rfl, -⟩ := exchange.inj hdecision
    exact UInt64.le_trans (saturatingSub_le seen bytes) hseen

theorem gpuRun_le_race :
    (gpuRun (.build 1 0 (some 4)) (fun _ : Fin 2 => .consume 3)
      [(0, false), (1, false), (0, false), (1, false)]).cell ≤ 4 :=
  gpuRun_le rfl _

theorem quotaResult_eq_some {moves : List (ι × Bool)} {i : ι} {result : CallResult}
    (h : quotaResult ctx calls moves i = some result) :
    ∃ seen, (quotaRun ctx calls moves).phase i = .ended seen ∧ (ctx.decision (calls i) seen).answer = result := by
  unfold quotaResult answer at h
  split at h
  · next seen hphase => exact ⟨seen, hphase, Option.some.inj h⟩
  · cases h

/-- Only a refusal is answered with a rejection. -/
theorem refuse_of_rejected {call : Call} {seen : UInt64} {e : TensorWasmError}
    (h : (ctx.decision call seen).answer = .rejected e) : ctx.decision call seen = .refuse (.rejected e) := by
  cases hdecision : ctx.decision call seen with
  | refuse answer =>
    rw [hdecision] at h
    rw [← h]
    rfl
  | exchange next answer =>
    rw [hdecision] at h
    cases call with
    | consume n =>
      rcases consumeCas_cases n ctx.memoryQuotaBytes seen with ⟨_, hexchange, -⟩ | hrefuse
      · obtain ⟨-, rfl⟩ := exchange.inj (hexchange.symm.trans hdecision)
        cases h
      · exact nomatch hrefuse.symm.trans hdecision
    | release bytes =>
      obtain ⟨-, rfl⟩ := exchange.inj hdecision
      cases h

/-- Under every schedule of the atomic steps of any number of calls, the counter is within its limit and
is what was admitted less what was reported released. A rejected call has not changed it in any of its
steps, and a release is clamped just when it released less than it was asked to. -/
theorem quota_counter_accounts [Fintype ι] (ctx : TenantContext) (calls : ι → Call)
    (moves : List (ι × Bool)) :
    (quotaRun ctx calls moves).cell ≤ ctx.memoryQuotaBytes ∧
    ((quotaRun ctx calls moves).cell.toNat : Int) =
      ∑ i, ((calls i).admitted (quotaResult ctx calls moves i) : Int) -
        ∑ i, (reported (quotaResult ctx calls moves i) : Int) ∧
    (∀ i e, quotaResult ctx calls moves i = some (.rejected e) →
      ∀ before lost after, moves = before ++ (i, lost) :: after →
        (quotaRun ctx calls (before ++ [(i, lost)])).cell = (quotaRun ctx calls before).cell) ∧
    (∀ i bytes outcome after, calls i = .release bytes →
      quotaResult ctx calls moves i = some (.released outcome after) →
        (outcome.clamped = true ↔ outcome.released < bytes)) := by
  refine ⟨quotaRun_le moves, quotaRun_balance moves, ?_, ?_⟩
  · intro i e hrejected before lost after hmoves
    obtain ⟨seen, hphase, hanswer⟩ := quotaResult_eq_some hrejected
    exact Race.refused_leaves_cell hmoves hphase (refuse_of_rejected hanswer)
  · intro i bytes outcome after hcall hreleased
    obtain ⟨seen, -, hanswer⟩ := quotaResult_eq_some hreleased
    rw [hcall] at hanswer
    obtain ⟨rfl, -⟩ := CallResult.released.inj hanswer
    change decide (seen < bytes) = true ↔ seen - saturatingSub seen bytes < bytes
    rw [decide_eq_true_iff, UInt64.lt_iff_toNat_lt, UInt64.lt_iff_toNat_lt, toNat_released]
    omega

/-- Three calls on a quota of four bytes. -/
def threeCalls : Fin 3 → Call
  | 0 => .consume 3
  | 1 => .consume 2
  | 2 => .release 5

/-- The second call loses an exchange to the first and is then refused; the release asks for too much. -/
def threeMoves : List (Fin 3 × Bool) :=
  [(0, false), (1, false), (0, false), (1, false), (1, false), (2, false), (2, true), (2, false)]

theorem quota_counter_accounts_three :
    (quotaRun (.build 1 4 none) threeCalls (threeMoves.take 4 ++ [(1, false)])).cell =
        (quotaRun (.build 1 4 none) threeCalls (threeMoves.take 4)).cell ∧
      quotaResult (.build 1 4 none) threeCalls threeMoves 2 = some (.released ⟨3, true⟩ 0) ∧
      (true = true ↔ (3 : UInt64) < 5) := by
  obtain ⟨-, -, hrejected, hclamped⟩ := quota_counter_accounts (.build 1 4 none) threeCalls threeMoves
  have hreleased : quotaResult (.build 1 4 none) threeCalls threeMoves 2 = some (.released ⟨3, true⟩ 0) := by
    decide +kernel
  have hexhausted : quotaResult (.build 1 4 none) threeCalls threeMoves 1 =
      some (.rejected (.memoryExhausted 2 4)) := by
    decide +kernel
  refine ⟨hrejected 1 _ hexhausted _ _ _ rfl, hreleased, ?_⟩
  exact hclamped 2 5 ⟨3, true⟩ 0 rfl hreleased

end Runs

end TensorWasm.Tenants
