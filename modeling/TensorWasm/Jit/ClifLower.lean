import TensorWasm.Lib.Outcome
import TensorWasm.Jit.Detector

/-!
# Lowering a block to a blueprint

`tensor-wasm-jit/src/clif_lower.rs`. The op stream is flat: SIMD ops carry their shape, loads and
stores take the one shape inferred from the block's SIMD ops.
-/

namespace TensorWasm.Jit

open Lib

inductive LowerError where
  | unsupportedOp (block : String) (op : Op)
  | outOfBoundsMemory (block : String)
  | mixedElementTypes (block : String) (first second : ElemType)
  deriving DecidableEq

def defaultLanes : UInt32 := 4

/-- A byte range of linear memory. -/
structure MemRef where
  offset : Nat
  len : Nat

/-- The shape a SIMD op carries. -/
def Op.shape : Op → Option (ElemType × UInt32)
  | .v128Add t n | .v128Mul t n | .v128Fma t n => some (t, n)
  | _ => none

/-- The scan of `infer_block_shape`. Only element types are compared: the lane count is the one
of the first SIMD op. -/
def scanShape (block : String) :
    List Op → Option (ElemType × UInt32) → Except LowerError (Option (ElemType × UInt32))
  | [], shape => .ok shape
  | op :: ops, shape =>
    match op.shape, shape with
    | none, _ => scanShape block ops shape
    | some cur, none => scanShape block ops (some cur)
    | some cur, some seen =>
      if seen.1 ≠ cur.1 then .error (.mixedElementTypes block seen.1 cur.1)
      else scanShape block ops (some seen)

def inferBlockShape (block : BlockIR) : Except LowerError (ElemType × UInt32) := do
  let shape ← scanShape block.name block.ops none
  .ok (shape.getD (.f32, defaultLanes))

/-- The `match` of `lower_block`; `mem` is the inferred load/store shape. -/
def lowerOpOf (block : String) (mem : ElemType × UInt32) : Op → Except LowerError TensorWasmOp
  | .v128Add t n => .ok (.vecAdd t n)
  | .v128Mul t n => .ok (.vecMul t n)
  | .v128Fma t n => .ok (.vecFma t n)
  | .load => .ok (.loadUnified mem.1 mem.2)
  | .store => .ok (.storeUnified mem.1 mem.2)
  | op => .error (.unsupportedOp block op)

/-- `u32::try_from(n).unwrap_or(u32::MAX)`. -/
def saturateU32 (n : Nat) : UInt32 := if n < 2 ^ 32 then UInt32.ofNat n else UInt32.ofNat (2 ^ 32 - 1)

/-- Lower a block to a blueprint. -/
def lowerBlock (block : BlockIR) : Except LowerError TensorWasmKernelBlueprint := do
  let mem ← inferBlockShape block
  let ops ← block.ops.mapM (lowerOpOf block.name mem)
  .ok { TensorWasmKernelBlueprint.new block.name with
        ops := ops
        gridHint := { totalThreads := saturateU32 (block.loopTripCount.getD 256),
                      preferredBlockSize := 128 } }

/-- Lower a block after checking its memory references against the memory size. The end of a
reference is computed in `u64`; an overflow counts as out of bounds. -/
def lowerBlockChecked (block : BlockIR) (memRefs : List MemRef) (memoryBytes : Nat) :
    Except LowerError TensorWasmKernelBlueprint :=
  if memRefs.any fun r => decide (2 ^ 64 ≤ r.offset + r.len ∨ memoryBytes < r.offset + r.len) then
    .error (.outOfBoundsMemory block.name)
  else lowerBlock block

end TensorWasm.Jit
