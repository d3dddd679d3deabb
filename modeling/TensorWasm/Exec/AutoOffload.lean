import TensorWasm.Jit.Rewrite

/-!
# The consultation pass

`tensor-wasm-exec/src/auto_offload.rs`: the analysis the executor runs before it pays for a rewrite.
It has its own copy of the operator classifier and its own function counter. The module is given
parsed, so the errors of the parser do not occur.
-/

namespace TensorWasm.Exec

open Jit Wasm

/-- One classified body. `v128_ratio` is the quotient of the last two fields. -/
structure OffloadVerdict where
  functionIndex : UInt32
  verdict : DetectorVerdict
  opCount : Nat
  v128Count : Nat

/-- The pass's own classifier; an indirect tail call is not a call here. -/
def opToDetectorOp : Operator → Op
  | .v128Load _ => .load
  | .v128Store _ => .store
  | .add _ => .scalarAdd
  | .mul _ => .scalarMul
  | .load .. => .load
  | .store .. => .store
  | .br _ | .brIf _ | .brTable .. | .if_ _ | .else_ | .loop _ | .block _ => .branch
  | .call _ | .callIndirect .. | .returnCall _ => .call
  | .simdAdd .f32x4 => .v128Add .f32 4
  | .simdAdd .i32x4 => .v128Add .i32 4
  | .simdMul .f32x4 => .v128Mul .f32 4
  | .simdMul .i32x4 => .v128Mul .i32 4
  | _ => .other

def sawLoop : Operator → Bool
  | .loop _ => true
  | _ => false

/-- The verdict about one body. -/
def analyseBody (cfg : DetectorConfig) (funcIdx : UInt32) (body : FuncBody) : OffloadVerdict :=
  let detectorOps := body.ops.map opToDetectorOp
  let tripCount := if body.ops.any sawLoop then some 128 else none
  let block : BlockIR := ⟨s!"func{funcIdx}", detectorOps, tripCount⟩
  { functionIndex := funcIdx
    verdict := classify block cfg
    opCount := detectorOps.length
    v128Count := (detectorOps.filter Op.isV128).length }

/-- One code entry: record the verdict and count. -/
def consultBody (cfg : DetectorConfig) (st : List OffloadVerdict × UInt32) (body : FuncBody) :
    List OffloadVerdict × UInt32 :=
  (st.1 ++ [analyseBody cfg st.2 body], st.2 + 1)

/-- Only code sections are looked at. -/
def consultSection (cfg : DetectorConfig) (st : List OffloadVerdict × UInt32) :
    Section → List OffloadVerdict × UInt32
  | .code bodies => bodies.foldl (consultBody cfg) st
  | _ => st

/-- `analyse_with_config`. The counter starts at the first code entry, whatever is imported. -/
def analyseWithConfig (m : Module) (cfg : DetectorConfig) : List OffloadVerdict :=
  (m.foldl (consultSection cfg) ([], 0)).1

/-- `maybe_rewrite_for_offload`: the module the executor instantiates. It consults first and rewrites
only if some body is a candidate, and keeps the original if the rewrite fails or swaps nothing. -/
def maybeRewriteForOffload (driver : Wasm.Driver RewriterState) (blake3 : Bytes → Bytes)
    (autoOffload jitCache : Bool) (detector : DetectorConfig) (tenantId : UInt64) (m : Module) : Module :=
  if !autoOffload then m
  else if !jitCache then m
  else if !(analyseWithConfig m detector).any (fun v => v.verdict = .offload) then m
  else
    let opts := { RewriteOptions.default with tenantId := tenantId, detector := detector }
    match rewriteWasm driver blake3 m opts with
    | .error _ => m
    | .ok (outcome, _) => if outcome.offloadedFunctions.isEmpty then m else outcome.rewrittenWasm

end TensorWasm.Exec
