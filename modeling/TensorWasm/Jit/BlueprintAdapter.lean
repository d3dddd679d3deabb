import TensorWasm.Clif.LoweredIr
import TensorWasm.Jit.Ir

/-!
# From a lowered function to a blueprint

`blueprint_adapter.rs` of `tensor-wasm-jit`: a function of one block `[Load, arith, Store, Return]` becomes a
blueprint of a load, the arithmetic op and a store, each of four lanes of the element type of the arithmetic op.
-/

namespace TensorWasm.Jit

open Clif

def BlueprintAdapter.defaultLanes : UInt32 := 4

def loweredTypeToElem : LoweredType → Option ElemType
  | .i8 => some .i8
  | .i16 => some .i16
  | .i32 => some .i32
  | .i64 => some .i64
  | .f32 => some .f32
  | .f64 => some .f64
  | .ptr | .bool | .v128 _ _ => none

/-- The `reason` of an unmatched pattern, with what its text prints. -/
inductive UnmatchedReason
  | terminatorNotReturn (opCount : Nat)
  | opCount (opCount : Nat)
  | noLoad
  | noStore
  | elemType (ty : LoweredType)
  | middleOp (op : LoweredOp)

inductive AdapterError
  | unmatchedPattern (reason : UnmatchedReason)
  | multiBlockNotSupported (blockCount : Nat)
  | malformed

/-- The op that an arithmetic op becomes, and its element type. -/
def kernelOp (op : LoweredOp) : Except AdapterError (TensorWasmOp × ElemType) :=
  let withElem (ty : LoweredType) (mk : ElemType → TensorWasmOp) : Except AdapterError (TensorWasmOp × ElemType) :=
    match loweredTypeToElem ty with
    | some elem => .ok (mk elem, elem)
    | none => .error (.unmatchedPattern (.elemType ty))
  match op with
  | .float .addF ty _ _ _ | .arith .addI ty _ _ _ => withElem ty (.vecAdd · BlueprintAdapter.defaultLanes)
  | .float .mulF ty _ _ _ | .arith .mulI ty _ _ _ => withElem ty (.vecMul · BlueprintAdapter.defaultLanes)
  | .fma ty _ _ _ _ => withElem ty (.vecFma · BlueprintAdapter.defaultLanes)
  | other => .error (.unmatchedPattern (.middleOp other))

/-- `matches!(op, LoweredOp::Load { .. })`, and so on. -/
def isLoad : LoweredOp → Bool
  | .load .. => true
  | _ => false

def isStore : LoweredOp → Bool
  | .store .. => true
  | _ => false

def isReturn : LoweredOp → Bool
  | .return _ => true
  | _ => false

/-- The checks on the one block, and the blueprint. -/
def blockToBlueprint (name : String) (ops : List LoweredOp) : Except AdapterError TensorWasmKernelBlueprint :=
  match ops.getLast? with
  | none => .error .malformed
  | some last =>
    if !last.isTerminator then .error .malformed
    else if !isReturn last then .error (.unmatchedPattern (.terminatorNotReturn ops.length))
    else
      match ops with
      | [first, middle, third, _] =>
        if !isLoad first then .error (.unmatchedPattern .noLoad)
        else if !isStore third then .error (.unmatchedPattern .noStore)
        else
          match kernelOp middle with
          | .error e => .error e
          | .ok (op, elem) =>
            .ok { entry := name
                  ops := [.loadUnified elem BlueprintAdapter.defaultLanes, op,
                    .storeUnified elem BlueprintAdapter.defaultLanes]
                  gridHint := .default
                  sharedMemBytes := 0 }
      | _ => .error (.unmatchedPattern (.opCount ops.length))

def loweredFunctionToBlueprint (func : LoweredFunction) : Except AdapterError TensorWasmKernelBlueprint :=
  match func.blocks with
  | [] => .error .malformed
  | [block] => blockToBlueprint func.name block.ops
  | blocks => .error (.multiBlockNotSupported blocks.length)

end TensorWasm.Jit
