import TensorWasm.Jit.Ir

/-!
# The offload detector

`tensor-wasm-jit/src/detector.rs`. A function body is reduced to a stream of op classes, and the
verdict is a ratio of SIMD ops together with a loop trip count.
-/

namespace TensorWasm.Jit

/-- Op classes the detector distinguishes. -/
inductive Op where
  | v128Add (laneTy : ElemType) (lanes : UInt32)
  | v128Mul (laneTy : ElemType) (lanes : UInt32)
  | v128Fma (laneTy : ElemType) (lanes : UInt32)
  | scalarAdd | scalarMul | load | store | branch | call | other
  deriving DecidableEq

def Op.isV128 : Op → Bool
  | .v128Add .. | .v128Mul .. | .v128Fma .. => true
  | _ => false

/-- A simplified basic block. -/
structure BlockIR where
  name : String
  ops : List Op
  loopTripCount : Option Nat

inductive DetectorVerdict where
  | offload | keepOnCpu
  deriving DecidableEq

/-- Parameters of the detector. `ratioMeets v n` is the source's single-precision comparison
`v as f32 / n as f32 >= v128_ratio_threshold`; floating point itself is not modelled, so a
configuration is the comparison its threshold induces. -/
structure DetectorConfig where
  ratioMeets : Nat → Nat → Bool
  minTripCount : Nat

/-- `DetectorConfig::default`: a ratio of 0.8 and 64 iterations. Counts are far below `2 ^ 23`, where
the rounded quotient reaches the rounded 0.8 exactly when `v / n` reaches `4 / 5`. -/
def DetectorConfig.default : DetectorConfig :=
  { ratioMeets := fun v n => decide (4 * n ≤ 5 * v), minTripCount := 64 }

/-- `v128_ratio_of(ops) >= threshold`; the empty slice has ratio `0.0`. -/
def v128RatioMeets (cfg : DetectorConfig) (ops : List Op) : Bool :=
  if ops.isEmpty then cfg.ratioMeets 0 1
  else cfg.ratioMeets (ops.filter Op.isV128).length ops.length

/-- Classify from an op slice and a trip count. -/
def classifyOps (ops : List Op) (loopTripCount : Option Nat) (cfg : DetectorConfig) :
    DetectorVerdict :=
  let tripOk := match loopTripCount with
    | some n => decide (cfg.minTripCount ≤ n)
    | none => false
  if v128RatioMeets cfg ops && tripOk then .offload else .keepOnCpu

def classify (block : BlockIR) (cfg : DetectorConfig) : DetectorVerdict :=
  classifyOps block.ops block.loopTripCount cfg

/-- An offload verdict needs a known trip count. -/
theorem tripCount_of_classifyOps {ops : List Op} {trip : Option Nat} {cfg : DetectorConfig}
    (h : classifyOps ops trip cfg = .offload) : ∃ n, trip = some n ∧ cfg.minTripCount ≤ n := by
  unfold classifyOps at h
  cases trip with
  | none => simp at h
  | some n =>
    refine ⟨n, rfl, ?_⟩
    by_contra hlt
    simp [hlt] at h

end TensorWasm.Jit
