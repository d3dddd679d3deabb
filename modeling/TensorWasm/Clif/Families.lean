import Mathlib.Logic.Function.Basic
import TensorWasm.Clif.Syntax
import TensorWasm.Clif.LoweredIr
import TensorWasm.Lib.Attempt

/-!
# The per-family lowerings

The builder that maps Cranelift references to lowered ids, and the six families the driver tries in
turn. A family that gives up keeps the counter it has advanced, hence `Lib.Attempt`.
-/

namespace TensorWasm.Clif

open Lib (Attempt)

/-- The maps and counters shared by the lowering of one function. -/
structure LoweringBuilder where
  valueMap : Value → Option LoweredValueId
  blockMap : Block → Option LoweredBlockId
  stackSlotMap : StackSlot → Option LoweredValueId
  nextValueId : LoweredValueId
  nextBlockId : LoweredBlockId

/-- `checked_add(1)` on a `u32` counter. -/
def checkedSucc (n : Nat) : Option Nat := if n + 1 < 2 ^ 32 then some (n + 1) else none

namespace LoweringBuilder

def new : LoweringBuilder := ⟨fun _ => none, fun _ => none, fun _ => none, 0, 0⟩

def bindValue (b : LoweringBuilder) (v : Value) (id : LoweredValueId) : LoweringBuilder :=
  { b with valueMap := Function.update b.valueMap v (some id) }

end LoweringBuilder

/-- A fresh value id; on overflow the counter is left alone. -/
def freshId : Attempt LoweringBuilder LoweredValueId := fun b =>
  match checkedSucc b.nextValueId with
  | some next => (some b.nextValueId, { b with nextValueId := next })
  | none => (none, b)

def lookupValue (v : Value) : Attempt LoweringBuilder LoweredValueId := fun b => (b.valueMap v, b)

def bindResult (v : Value) (id : LoweredValueId) : Attempt LoweringBuilder Unit := fun b =>
  (some (), b.bindValue v id)

/-! ## Types -/

def Scalar.toLowered : Scalar → Option LoweredType
  | .i8 => some .i8
  | .i16 => some .i16
  | .i32 => some .i32
  | .i64 => some .i64
  | .f32 => some .f32
  | .f64 => some .f64
  | _ => none

/-- `cranelift_int_type_to_lowered` of the arithmetic family. -/
def craneliftIntTypeToLowered : ClType → Option LoweredType
  | .scalar .i8 => some .i8
  | .scalar .i16 => some .i16
  | .scalar .i32 => some .i32
  | .scalar .i64 => some .i64
  | _ => none

/-- `cranelift_type_to_lowered` of the memory and of the conversion family, which are the same
table. -/
def scalarTypeToLowered : ClType → Option LoweredType
  | .scalar s => s.toLowered
  | _ => none

/-- The lane type of a fixed-width vector. -/
def vectorLaneType : ClType → Option LoweredType
  | .vector lane _ => lane.toLowered
  | _ => none

/-- `cranelift_type_to_lowered` of the signature lowering: also references, and vectors whose lane
count fits a `u8`. -/
def craneliftTypeToLowered : ClType → Option LoweredType
  | .scalar .r32 | .scalar .r64 => some .ptr
  | .scalar s => s.toLowered
  | .vector lane log2 =>
    match lane.toLowered with
    | some laneTy => if 2 ^ (log2.val + 1) < 256 then some (.v128 laneTy (2 ^ (log2.val + 1))) else none
    | none => none
  | .dynamicVector _ _ => none

/-! ## Arithmetic -/

def arithKind : Opcode → Option ArithKind
  | .binary .iadd => some .addI
  | .binary .isub => some .subI
  | .binary .imul => some .mulI
  | .binary .sdiv => some .divS
  | .binary .udiv => some .divU
  | .binary .srem => some .remS
  | .binary .urem => some .remU
  | _ => none

/-- The two operands of a two-operand instruction. -/
def binaryArgs : List Value → Option (Value × Value)
  | [lhs, rhs] => some (lhs, rhs)
  | _ => none

/-- The only result of an instruction. -/
def singleResult : List Value → Option Value
  | [result] => some result
  | _ => none

/-- The arithmetic family binds its result itself. -/
def lowerArithInst (f : Function) (i : Inst) : Attempt LoweringBuilder LoweredOp := do
  let kind ← .ofOption (arithKind i.data.opcode)
  let args ← .ofOption (binaryArgs i.data.args)
  let resultValue ← .ofOption (singleResult i.results)
  let ty ← .ofOption (craneliftIntTypeToLowered (f.valueType resultValue))
  let lhs ← lookupValue args.1
  let rhs ← lookupValue args.2
  let result ← freshId
  bindResult resultValue result
  return .arith kind ty lhs rhs result

/-! ## Floats -/

def isFloatFamily : InstData → Bool
  | .binary .fadd _ _ | .binary .fsub _ _ | .binary .fmul _ _ | .binary .fdiv _ _
  | .ternary .fma _ _ _ | .unary .fneg _ | .unary .fabs _ => true
  | _ => false

def floatTypeToLowered : ClType → Option LoweredType
  | .scalar .f32 => some .f32
  | .scalar .f64 => some .f64
  | _ => none

def lowerFloatBinary (kind : FloatKind) (ty : LoweredType) (x y : Value) (result : LoweredValueId) :
    Attempt LoweringBuilder LoweredOp := do
  let lhs ← lookupValue x
  let rhs ← lookupValue y
  return .float kind ty lhs rhs result

/-- The operands are looked up after the id has been taken. -/
def floatOp (data : InstData) (ty : LoweredType) (result : LoweredValueId) : Attempt LoweringBuilder LoweredOp :=
  match data with
  | .binary .fadd x y => lowerFloatBinary .addF ty x y result
  | .binary .fsub x y => lowerFloatBinary .subF ty x y result
  | .binary .fmul x y => lowerFloatBinary .mulF ty x y result
  | .binary .fdiv x y => lowerFloatBinary .divF ty x y result
  | .ternary .fma x y z => do
    let a ← lookupValue x
    let b ← lookupValue y
    let c ← lookupValue z
    return .fma ty a b c result
  | .unary .fneg x => do
    let src ← lookupValue x
    return .fNeg ty src result
  | .unary .fabs x => do
    let src ← lookupValue x
    return .fAbs ty src result
  | _ => .ofOption none

def lowerFloatInst (f : Function) (i : Inst) : Attempt LoweringBuilder LoweredOp :=
  if isFloatFamily i.data then do
    let resultValue ← .ofOption i.results.head?
    let ty ← .ofOption (floatTypeToLowered (f.valueType resultValue))
    let result ← freshId
    floatOp i.data ty result
  else
    .ofOption none

/-! ## Memory -/

inductive MemLowerError
  | unmappedValue (v : Value)
  | unsupportedType (ty : ClType)
  | ssaOverflow
  /-- Not an error value of the source: `first_result` panics. -/
  | panicked (message : String)

namespace LoweringBuilder

/-- `fresh_id` of the memory context. -/
def freshMemId (b : LoweringBuilder) : Except MemLowerError (LoweredValueId × LoweringBuilder) :=
  match checkedSucc b.nextValueId with
  | some next => .ok (b.nextValueId, { b with nextValueId := next })
  | none => .error .ssaOverflow

/-- `lookup_value` of the memory context. -/
def lookupMem (b : LoweringBuilder) (v : Value) : Except MemLowerError LoweredValueId :=
  match b.valueMap v with
  | some id => .ok id
  | none => .error (.unmappedValue v)

end LoweringBuilder

def memType (ty : ClType) : Except MemLowerError LoweredType :=
  match scalarTypeToLowered ty with
  | some lowered => .ok lowered
  | none => .error (.unsupportedType ty)

def firstResult (i : Inst) : Except MemLowerError Value :=
  match i.results with
  | v :: _ => .ok v
  | [] => .error (.panicked "Instruction has no results")

/-- `ensure_stack_alloca`: the pointer of the slot, with the allocation if this is its first touch. -/
def ensureStackAlloca (f : Function) (slot : StackSlot) (ty : LoweredType) (b : LoweringBuilder) :
    Except MemLowerError (LoweredValueId × List LoweredOp × LoweringBuilder) :=
  match b.stackSlotMap slot with
  | some existing => .ok (existing, [], b)
  | none => do
    let (ptrId, b) ← b.freshMemId
    return (ptrId, [.stackAlloc ty (f.stackSlotSize slot) ptrId],
      { b with stackSlotMap := Function.update b.stackSlotMap slot (some ptrId) })

def lowerMemoryInst (f : Function) (i : Inst) (b : LoweringBuilder) :
    Except MemLowerError (Option (List LoweredOp) × LoweringBuilder) :=
  match i.data with
  | .load _ arg offset => do
    let base ← b.lookupMem arg
    let resultVal ← firstResult i
    let ty ← memType (f.valueType resultVal)
    let (resultId, b) ← b.freshMemId
    return (some [.load ty base offset resultId], b)
  | .store _ valueV baseV offset => do
    let value ← b.lookupMem valueV
    let base ← b.lookupMem baseV
    let ty ← memType (f.valueType valueV)
    return (some [.store ty value base offset], b)
  | .stackLoad slot offset => do
    let resultVal ← firstResult i
    let ty ← memType (f.valueType resultVal)
    let (ptr, emitted, b) ← ensureStackAlloca f slot ty b
    let (resultId, b) ← b.freshMemId
    return (some (emitted ++ [.load ty ptr offset resultId]), b)
  | .stackStore arg slot offset => do
    let value ← b.lookupMem arg
    let ty ← memType (f.valueType arg)
    let (ptr, emitted, b) ← ensureStackAlloca f slot ty b
    return (some (emitted ++ [.store ty value ptr offset]), b)
  | _ => .ok (none, b)

/-! ## Control flow -/

def mapBlockCallArgs (b : LoweringBuilder) (args : List Value) : Option (List LoweredValueId) :=
  args.mapM b.valueMap

/-- The cases of a jump table, numbered from `idx`; a destination with arguments has no lowering. -/
def switchCases (b : LoweringBuilder) : Nat → List BlockCall → Option (List (Nat × LoweredBlockId))
  | _, [] => some []
  | idx, call :: rest =>
    if call.args.isEmpty then do
      let target ← b.blockMap call.block
      let cases ← switchCases b (idx + 1) rest
      return (idx % 2 ^ 32, target) :: cases
    else
      none

/-- The control-flow family allocates nothing. -/
def lowerCfInst (i : Inst) (b : LoweringBuilder) : Option LoweredOp :=
  match i.data with
  | .jump destination => do
    let target ← b.blockMap destination.block
    let args ← mapBlockCallArgs b destination.args
    return .br target args
  | .brif arg thenCall elseCall => do
    let cond ← b.valueMap arg
    let thenTarget ← b.blockMap thenCall.block
    let elseTarget ← b.blockMap elseCall.block
    let thenArgs ← mapBlockCallArgs b thenCall.args
    let elseArgs ← mapBlockCallArgs b elseCall.args
    return .condBr cond thenTarget thenArgs elseTarget elseArgs
  | .brTable arg default table => do
    let value ← b.valueMap arg
    let defaultTarget ← b.blockMap default.block
    let cases ← switchCases b 0 table
    if default.args.isEmpty then return .switch value defaultTarget cases else none
  | .multiAryReturn args => do
    let values ← mapBlockCallArgs b args
    return .return values
  | _ => none

/-! ## Vectors -/

/-- The minimum and maximum operations, with the signedness of the comparison. -/
def minMaxOp (op : BinaryOpcode) (laneTy : LoweredType) (lhs rhs result : LoweredValueId) : Option LoweredOp :=
  match op with
  | .fmin => some (.vMin laneTy true lhs rhs result)
  | .smin => some (.vMin laneTy true lhs rhs result)
  | .umin => some (.vMin laneTy false lhs rhs result)
  | .fmax => some (.vMax laneTy true lhs rhs result)
  | .smax => some (.vMax laneTy true lhs rhs result)
  | .umax => some (.vMax laneTy false lhs rhs result)
  | _ => none

/-- `vall_true` and `vany_true`, which require a vector source. -/
def lowerVectorTruth (f : Function) (arg : Value)
    (op : LoweredValueId → LoweredValueId → LoweredOp) : Attempt LoweringBuilder LoweredOp :=
  if (f.valueType arg).isVector then do
    let src ← lookupValue arg
    let result ← freshId
    return op src result
  else
    .ofOption none

def lowerVectorInst (f : Function) (i : Inst) : Attempt LoweringBuilder LoweredOp :=
  match i.data with
  | .binary op x y => do
    let resultValue ← .ofOption i.results.head?
    let laneTy ← .ofOption (vectorLaneType (f.valueType resultValue))
    let lhs ← lookupValue x
    let rhs ← lookupValue y
    -- The id is taken before the opcode is looked at.
    let result ← freshId
    .ofOption (minMaxOp op laneTy lhs rhs result)
  | .unary .splat arg => do
    let resultValue ← .ofOption i.results.head?
    let laneTy ← .ofOption (vectorLaneType (f.valueType resultValue))
    let src ← lookupValue arg
    let result ← freshId
    return .vSplat laneTy src result
  | .unary .vallTrue arg => lowerVectorTruth f arg .vAllTrue
  | .unary .vanyTrue arg => lowerVectorTruth f arg .vAnyTrue
  | .ternary .bitselect c x y => do
    let resultValue ← .ofOption i.results.head?
    let laneTy ← .ofOption (vectorLaneType (f.valueType resultValue))
    let cond ← lookupValue c
    let thenV ← lookupValue x
    let elseV ← lookupValue y
    let result ← freshId
    return .vSelect laneTy cond thenV elseV result
  | _ => .ofOption none

/-! ## Conversions -/

/-- `ireduce`, `uextend` and `sextend` are defensively restricted to integers. -/
def convTypesOk (kind : ConvKind) (fromTy toTy : LoweredType) : Bool :=
  match kind with
  | .bitcast => true
  | _ => fromTy.isInt && toTy.isInt

def lowerConversion (f : Function) (i : Inst) (kind : ConvKind) (srcV : Value) :
    Attempt LoweringBuilder LoweredOp := do
  let resultV ← .ofOption (singleResult i.results)
  let fromTy ← .ofOption (scalarTypeToLowered (f.valueType srcV))
  let toTy ← .ofOption (scalarTypeToLowered (f.valueType resultV))
  if convTypesOk kind fromTy toTy then do
    let src ← lookupValue srcV
    let result ← freshId
    return .conv kind fromTy toTy src result
  else
    .ofOption none

def lowerConvInst (f : Function) (i : Inst) : Attempt LoweringBuilder LoweredOp :=
  match i.data with
  | .ternary .select c x y => do
    let resultV ← .ofOption (singleResult i.results)
    let ty ← .ofOption (scalarTypeToLowered (f.valueType resultV))
    let cond ← lookupValue c
    let thenV ← lookupValue x
    let elseV ← lookupValue y
    let result ← freshId
    return .select ty cond thenV elseV result
  | .bitcast _ arg => lowerConversion f i .bitcast arg
  | .unary .ireduce arg => lowerConversion f i .truncI arg
  | .unary .uextend arg => lowerConversion f i .extendU arg
  | .unary .sextend arg => lowerConversion f i .extendS arg
  | _ => .ofOption none

end TensorWasm.Clif
