import TensorWasm.Jit.PtxExec

/-!
# The CPU reference interpreter

`reference_eval` of `tensor-wasm-jit/src/differential.rs`: the ground truth the GPU path is
compared with. It keeps one value stack and pops whole lane vectors. The stack has its top at the
head here, so a lane vector popped in lane order is the reverse of the slots it occupied.
-/

namespace TensorWasm.Jit

/-- Errors produced by `reference_eval`. -/
inductive ReferenceEvalError where
  | unsupportedOp | inputTooShort | stackUnderflow

/-- The mutable locals of `reference_eval`. -/
structure RefState where
  stack : List (BitVec 32)
  output : Bytes
  inCursor : Nat

def RefState.init : RefState := ⟨[], [], 0⟩

/-- Pop the top `lanes` values, in pushed (lane) order. -/
def popLaneVector (stack : List (BitVec 32)) (lanes : Nat) :
    Except ReferenceEvalError (List (BitVec 32) × List (BitVec 32)) :=
  if stack.length < lanes then .error .stackUnderflow
  else .ok ((stack.take lanes).reverse, stack.drop lanes)

/-- Pop two lane-aligned operand vectors `(a, b)`; `b` is on top. -/
def popTwoLaneVectors (stack : List (BitVec 32)) (lanes : Nat) :
    Except ReferenceEvalError ((List (BitVec 32) × List (BitVec 32)) × List (BitVec 32)) := do
  let (b, stack) ← popLaneVector stack lanes
  let (a, stack) ← popLaneVector stack lanes
  .ok ((a, b), stack)

/-- The load loop. The cursor never passes the input's length, so `checked_add` cannot fail. -/
def refLoad (inputs : Bytes) : Nat → RefState → Except ReferenceEvalError RefState
  | 0, s => .ok s
  | n + 1, s =>
    match readWord inputs s.inCursor with
    | none => .error .inputTooShort
    | some w => refLoad inputs n { s with stack := w :: s.stack, inCursor := s.inCursor + 4 }

/-- The pop loop of a store: the popped values in pop order, and the stack left. -/
def refPop : Nat → List (BitVec 32) →
    Except ReferenceEvalError (List (BitVec 32) × List (BitVec 32))
  | 0, stack => .ok ([], stack)
  | _ + 1, [] => .error .stackUnderflow
  | n + 1, v :: stack => do
    let (popped, stack) ← refPop n stack
    .ok (v :: popped, stack)

/-- Push a vector lane by lane, so its last lane ends on top. -/
def RefState.pushVector (s : RefState) (rest vs : List (BitVec 32)) : RefState :=
  { s with stack := vs.reverse ++ rest }

/-- One arm of the op loop. -/
def refOp (fo : F32Ops) (inputs : Bytes) (op : TensorWasmOp) (s : RefState) :
    Except ReferenceEvalError RefState :=
  match op with
  | .loadUnified elem lanes =>
    if elem ≠ .f32 then .error .unsupportedOp else refLoad inputs lanes.toNat s
  | .storeUnified elem lanes =>
    if elem ≠ .f32 then .error .unsupportedOp
    else do
      let (popped, stack) ← refPop lanes.toNat s.stack
      .ok { s with stack := stack, output := s.output ++ popped.reverse.flatMap wordBytes }
  | .vecAdd elem lanes =>
    if elem ≠ .f32 then .error .unsupportedOp
    else do
      let ((a, b), rest) ← popTwoLaneVectors s.stack lanes.toNat
      .ok (s.pushVector rest (List.zipWith fo.add a b))
  | .vecMul elem lanes =>
    if elem ≠ .f32 then .error .unsupportedOp
    else do
      let ((a, b), rest) ← popTwoLaneVectors s.stack lanes.toNat
      .ok (s.pushVector rest (List.zipWith fo.mul a b))
  | .vecFma elem lanes =>
    if elem ≠ .f32 then .error .unsupportedOp
    else do
      let (c, rest) ← popLaneVector s.stack lanes.toNat
      let (b, rest) ← popLaneVector rest lanes.toNat
      let (a, rest) ← popLaneVector rest lanes.toNat
      .ok (s.pushVector rest (List.zipWith3 fo.fma a b c))
  | .barrier => .ok s
  | .matMul .. => .error .unsupportedOp

def refOps (fo : F32Ops) (inputs : Bytes) :
    List TensorWasmOp → RefState → Except ReferenceEvalError RefState
  | [], s => .ok s
  | op :: ops, s => do
    let s ← refOp fo inputs op s
    refOps fo inputs ops s

/-- Interpret a blueprint over `inputs` and produce the output stream. -/
def referenceEval (fo : F32Ops) (bp : TensorWasmKernelBlueprint) (inputs : Bytes) :
    Except ReferenceEvalError Bytes := do
  let s ← refOps fo inputs bp.ops RefState.init
  .ok s.output

end TensorWasm.Jit
