import TensorWasm.Lib.LaneFlow
import TensorWasm.Jit.Reference

/-!
# A blueprint as a lane program, and the reference as its vector-wise reading

A blueprint of `f32` ops is a lane program (`laneProgram`), and `referenceEval` runs it
vector-wise: `refOps_eq_ok` says that a successful interpretation is exactly a vector-wise run
that stays inside the input buffer.
-/

namespace TensorWasm.Jit

open Lib

/-- The two-operand operations of a blueprint. -/
inductive ArithSym where
  | add | mul
  deriving DecidableEq

abbrev BlueprintLaneOp := LaneOp ArithSym Unit

/-- The op works on `f32` lanes, or is a barrier. -/
def TensorWasmOp.isF32 : TensorWasmOp → Bool
  | .vecAdd elem _ | .vecMul elem _ | .vecFma elem _
  | .loadUnified elem _ | .storeUnified elem _ => elem == .f32
  | .barrier => true
  | .matMul .. => false

/-- The lane instruction of an op; a barrier has none. -/
def TensorWasmOp.laneOps : TensorWasmOp → List BlueprintLaneOp
  | .vecAdd _ lanes => [.bin .add lanes.toNat]
  | .vecMul _ lanes => [.bin .mul lanes.toNat]
  | .vecFma _ lanes => [.ter () lanes.toNat]
  | .loadUnified _ lanes => [.load lanes.toNat]
  | .storeUnified _ lanes => [.store lanes.toNat]
  | .matMul .. | .barrier => []

def laneProgram (ops : List TensorWasmOp) : List BlueprintLaneOp :=
  ops.flatMap TensorWasmOp.laneOps

/-- The uninterpreted `f32` operations as an interpretation, and back. -/
def F32Ops.interp (fo : F32Ops) : Interp ArithSym Unit (BitVec 32) where
  bin
    | .add => fo.add
    | .mul => fo.mul
  ter _ := fo.fma

def F32Ops.ofInterp (A : Interp ArithSym Unit (BitVec 32)) : F32Ops :=
  ⟨A.bin .add, A.bin .mul, A.ter ()⟩

theorem F32Ops.interp_ofInterp (A : Interp ArithSym Unit (BitVec 32)) : (F32Ops.ofInterp A).interp = A := by
  obtain ⟨b, t⟩ := A
  refine congrArg₂ Interp.mk ?_ ?_
  · funext o
    cases o <;> rfl
  · funext o
    cases o
    rfl

/-- The `i`-th word of an input buffer. -/
def inputWord (inputs : Bytes) (i : Nat) : BitVec 32 := (readWord inputs (4 * i)).getD 0

variable {inputs : Bytes}

theorem readWord_eq_some {i : Nat} (h : 4 * i + 4 ≤ inputs.length) :
    readWord inputs (4 * i) = some (inputWord inputs i) := by
  simp [inputWord, readWord, h]

theorem readWord_eq_none {i : Nat} (h : ¬ 4 * i + 4 ≤ inputs.length) : readWord inputs (4 * i) = none := by
  simp [readWord, h]

/-! ## The reference interpreter -/

/-- The interpreter state that stands for a lane state. -/
def RefState.ofLane (v : LaneState (BitVec 32)) : RefState :=
  ⟨v.stack, v.out.flatMap wordBytes, 4 * v.cursor⟩

theorem refLoad_eq (n : Nat) (v : LaneState (BitVec 32)) (hc : 4 * v.cursor ≤ inputs.length) :
    refLoad inputs n (.ofLane v) =
      if 4 * (v.cursor + n) ≤ inputs.length then
        .ok (.ofLane (loadLanes (inputWord inputs) n v))
      else .error .inputTooShort := by
  induction n generalizing v with
  | zero => simp [refLoad, loadLanes, RefState.ofLane, hc]
  | succ n ih =>
    by_cases h : 4 * v.cursor + 4 ≤ inputs.length
    · have hstep := ih { v with stack := inputWord inputs v.cursor :: v.stack,
                                cursor := v.cursor + 1 } (by simpa [Nat.mul_add] using h)
      simp only [RefState.ofLane, refLoad, readWord_eq_some h, Nat.mul_succ, loadLanes_succ]
        at hstep ⊢
      rw [hstep]
      congr 2
      omega
    · simp only [RefState.ofLane, refLoad, readWord_eq_none h]
      rw [if_neg (by omega)]

theorem refPop_eq (n : Nat) (stack : List (BitVec 32)) :
    refPop n stack =
      if n ≤ stack.length then .ok (stack.take n, stack.drop n) else .error .stackUnderflow := by
  induction n generalizing stack with
  | zero => simp [refPop]
  | succ n ih =>
    cases stack with
    | nil => simp [refPop]
    | cons w stack =>
      by_cases h : n ≤ stack.length
      · simp [refPop, ih, h]
      · simp [refPop, ih, h]

theorem popTwoLaneVectors_eq (st : List (BitVec 32)) (n : Nat) :
    popTwoLaneVectors st n =
      if 2 * n ≤ st.length then
        .ok ((((st.drop n).take n).reverse, (st.take n).reverse), st.drop (2 * n))
      else .error .stackUnderflow := by
  by_cases h1 : st.length < n
  · simp [popTwoLaneVectors, popLaneVector, h1, show ¬ 2 * n ≤ st.length by omega]
  · by_cases h2 : 2 * n ≤ st.length
    · simp [popTwoLaneVectors, popLaneVector, h1, h2, show ¬ st.length - n < n by omega,
        ← Nat.two_mul]
    · simp [popTwoLaneVectors, popLaneVector, h1, h2, show st.length - n < n by omega]

/-- The three pops of `vec_fma`, with `c` on top. -/
theorem popThreeLaneVectors_eq {α : Type} (st : List (BitVec 32)) (n : Nat)
    (k : List (BitVec 32) → List (BitVec 32) → List (BitVec 32) → List (BitVec 32) → α) :
    (do
      let (c, rest) ← popLaneVector st n
      let (b, rest) ← popLaneVector rest n
      let (a, rest) ← popLaneVector rest n
      .ok (k a b c rest)) =
      if 3 * n ≤ st.length then
        .ok (k ((st.drop (2 * n)).take n).reverse ((st.drop n).take n).reverse
          (st.take n).reverse (st.drop (3 * n)))
      else .error .stackUnderflow := by
  by_cases h1 : st.length < n
  · simp [popLaneVector, h1, show ¬ 3 * n ≤ st.length by omega]
  · by_cases h2 : st.length - n < n
    · simp [popLaneVector, h1, h2, show ¬ 3 * n ≤ st.length by omega]
    · by_cases h3 : 3 * n ≤ st.length
      · have hd : n + n = 2 * n := by omega
        have ht : 2 * n + n = 3 * n := by omega
        simp [popLaneVector, h1, h2, h3, hd, ht, show ¬ st.length - 2 * n < n by omega]
      · simp [popLaneVector, h1, h2, h3, ← Nat.two_mul, show st.length - 2 * n < n by omega]

variable {v : LaneState (BitVec 32)}

theorem pushVector_zipBin (f : BitVec 32 → BitVec 32 → BitVec 32) {n : Nat} (h : 2 * n ≤ v.stack.length) :
    (RefState.ofLane v).pushVector (v.stack.drop (2 * n))
        (List.zipWith f ((v.stack.drop n).take n).reverse (v.stack.take n).reverse) =
      .ofLane { v with stack := zipBin f n v.stack } := by
  have hlen : ((v.stack.drop n).take n).length = (v.stack.take n).length := by simp; omega
  simp only [RefState.pushVector, RefState.ofLane, zipBin, RefState.mk.injEq, and_true]
  rw [← List.reverse_zipWith hlen, List.reverse_reverse]

theorem pushVector_zipTer (f : BitVec 32 → BitVec 32 → BitVec 32 → BitVec 32) {n : Nat} (h : 3 * n ≤ v.stack.length) :
    (RefState.ofLane v).pushVector (v.stack.drop (3 * n))
        (List.zipWith3 f ((v.stack.drop (2 * n)).take n).reverse
          ((v.stack.drop n).take n).reverse (v.stack.take n).reverse) =
      .ofLane { v with stack := zipTer f n v.stack } := by
  have hlen1 : ((v.stack.drop (2 * n)).take n).length = ((v.stack.drop n).take n).length := by
    simp; omega
  have hlen2 : (List.zipWith f ((v.stack.drop (2 * n)).take n)
      ((v.stack.drop n).take n)).length = (v.stack.take n).length := by simp; omega
  have hz : ∀ xs ys zs : List (BitVec 32),
      List.zipWith3 f xs ys zs = List.zipWith (fun g c => g c) (List.zipWith f xs ys) zs :=
    fun xs ys zs => (List.zipWith_zipWith_left (fun g c => g c) f xs ys zs).symm
  simp only [RefState.pushVector, RefState.ofLane, zipTer, RefState.mk.injEq, and_true, hz]
  rw [← List.reverse_zipWith hlen1, ← List.reverse_zipWith hlen2, List.reverse_reverse]

/-- **One op of the reference is one vector-wise step inside the input buffer.** -/
theorem refOp_eq_ok (fo : F32Ops) {op : TensorWasmOp} (hop : op.isF32 = true)
    (hc : 4 * v.cursor ≤ inputs.length) {s' : RefState} :
    refOp fo inputs op (.ofLane v) = .ok s' ↔
      ∃ v', laneRun (vecStep fo.interp (inputWord inputs)) op.laneOps v = some v' ∧
        4 * v'.cursor ≤ inputs.length ∧ s' = .ofLane v' := by
  cases op with
  | loadUnified elem lanes =>
    obtain rfl : elem = .f32 := by simpa [TensorWasmOp.isF32] using hop
    simp only [refOp, ne_eq, not_true_eq_false, if_false, refLoad_eq _ v hc]
    by_cases h : 4 * (v.cursor + lanes.toNat) ≤ inputs.length
    · simp [TensorWasmOp.laneOps, laneRun, vecStep, loadLanes, h, eq_comm]
    · simp [TensorWasmOp.laneOps, laneRun, vecStep, loadLanes, h]
  | storeUnified elem lanes =>
    obtain rfl : elem = .f32 := by simpa [TensorWasmOp.isF32] using hop
    by_cases h : lanes.toNat ≤ v.stack.length
    · simp [refOp, refPop_eq, TensorWasmOp.laneOps, laneRun, vecStep, RefState.ofLane, h, hc, eq_comm]
    · simp [refOp, refPop_eq, TensorWasmOp.laneOps, laneRun, vecStep, RefState.ofLane, h]
  | vecAdd elem lanes | vecMul elem lanes =>
    obtain rfl : elem = .f32 := by simpa [TensorWasmOp.isF32] using hop
    have hst : (RefState.ofLane v).stack = v.stack := rfl
    by_cases h : 2 * lanes.toNat ≤ v.stack.length
    · simp [refOp, hst, popTwoLaneVectors_eq, pushVector_zipBin, TensorWasmOp.laneOps, laneRun,
        vecStep, F32Ops.interp, h, hc, eq_comm]
    · simp [refOp, hst, popTwoLaneVectors_eq, TensorWasmOp.laneOps, laneRun, vecStep, h]
  | vecFma elem lanes =>
    obtain rfl : elem = .f32 := by simpa [TensorWasmOp.isF32] using hop
    have hfma : refOp fo inputs (.vecFma .f32 lanes) (.ofLane v) = _ :=
      popThreeLaneVectors_eq v.stack lanes.toNat fun a b c rest =>
        (RefState.ofLane v).pushVector rest (List.zipWith3 fo.fma a b c)
    rw [hfma]
    by_cases h : 3 * lanes.toNat ≤ v.stack.length
    · simp [pushVector_zipTer, TensorWasmOp.laneOps, laneRun, vecStep, F32Ops.interp, h, hc, eq_comm]
    · simp [TensorWasmOp.laneOps, laneRun, vecStep, h]
  | barrier => simp [refOp, TensorWasmOp.laneOps, laneRun, hc, eq_comm]
  | matMul m n k => simp [TensorWasmOp.isF32] at hop

/-- **The reference is the vector-wise reading of the blueprint**, by induction on its ops. -/
theorem refOps_eq_ok (fo : F32Ops) {ops : List TensorWasmOp} (hops : ∀ op ∈ ops, op.isF32 = true)
    (hc : 4 * v.cursor ≤ inputs.length) {s' : RefState} :
    refOps fo inputs ops (.ofLane v) = .ok s' ↔
      ∃ v', laneRun (vecStep fo.interp (inputWord inputs)) (laneProgram ops) v = some v' ∧
        4 * v'.cursor ≤ inputs.length ∧ s' = .ofLane v' := by
  induction ops generalizing v with
  | nil => simp [refOps, laneProgram, laneRun, hc, eq_comm]
  | cons op ops ih =>
    have hop := hops op (by simp)
    have hrest : ∀ op ∈ ops, op.isF32 = true := fun o ho => hops o (by simp [ho])
    simp only [refOps, bind_eq_ok, refOp_eq_ok fo hop hc, laneProgram, List.flatMap_cons,
      laneRun_append, Option.bind_eq_some_iff]
    constructor
    · rintro ⟨_, ⟨v1, hv1, hc1, rfl⟩, h2⟩
      obtain ⟨v', hv', hc', hs'⟩ := (ih hrest hc1).mp h2
      exact ⟨v', ⟨v1, hv1, hv'⟩, hc', hs'⟩
    · rintro ⟨v', ⟨v1, hv1, hv'⟩, hc', hs'⟩
      -- the cursor only moves forward, so the first op stayed inside the buffer too
      have hle : v1.cursor ≤ v'.cursor := laneRun_cursor_le (fun _ _ _ => vecStep_cursor_le) hv'
      have hc1 : 4 * v1.cursor ≤ inputs.length := by omega
      exact ⟨_, ⟨v1, hv1, hc1, rfl⟩, (ih hrest hc1).mpr ⟨v', hv', hc', hs'⟩⟩

end TensorWasm.Jit
