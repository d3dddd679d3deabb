import TensorWasm.Lib.Outcome
import TensorWasm.Pliron.Ir

/-!
# From the lowered IR to the `twasm` dialect

`lowered_function_to_pliron`: the blocks are made first, so that branches can name them, and then every
operation of the lowered function is emitted at the end of its block. Pliron's check of identifiers is a
parameter.
-/

namespace TensorWasm.Pliron

open Clif (LoweredType LoweredOp LoweredFunction LoweredBlock LoweredValueId LoweredBlockId)

/-- The operations of the `twasm` dialect. -/
inductive TwasmOpcode
  | addi | subi | muli | addf | subf | mulf
  | load | store
  | br | condBr | return
  | select | bitcast | trunci | extui | extsi | alloca
  deriving DecidableEq

/-- The text of an op id. -/
def TwasmOpcode.opid : TwasmOpcode → String
  | .addi => "twasm.addi"
  | .subi => "twasm.subi"
  | .muli => "twasm.muli"
  | .addf => "twasm.addf"
  | .subf => "twasm.subf"
  | .mulf => "twasm.mulf"
  | .load => "twasm.load"
  | .store => "twasm.store"
  | .br => "twasm.br"
  | .condBr => "twasm.cond_br"
  | .return => "twasm.return"
  | .select => "twasm.select"
  | .bitcast => "twasm.bitcast"
  | .trunci => "twasm.trunci"
  | .extui => "twasm.extui"
  | .extsi => "twasm.extsi"
  | .alloca => "twasm.alloca"

abbrev TwasmOp := Operation TwasmOpcode
abbrev TwasmFunc := FuncOp TwasmOpcode

inductive PlironConversionError
  | notYetWired (variant : String)
  | context (message : String)
  | undefinedValue (id : LoweredValueId)
  | undefinedBlock (id : LoweredBlockId)

def translateType : LoweredType → Except PlironConversionError PlironType
  | .i8 => .ok (.integer 8)
  | .i16 => .ok (.integer 16)
  | .i32 => .ok (.integer 32)
  | .i64 => .ok (.integer 64)
  | .f32 => .ok .fp32
  | .f64 => .ok .fp64
  | .ptr => .ok (.integer 64)
  | .bool => .ok (.integer 1)
  | .v128 _ _ => .error (.notYetWired "LoweredType::V128")

/-- `ConversionState`, with the function under construction. -/
structure ConversionState where
  func : TwasmFunc
  values : LoweredValueId → Option Value
  blocks : LoweredBlockId → Option BlockPtr

namespace ConversionState

def getValue (s : ConversionState) (id : LoweredValueId) : Except PlironConversionError Value :=
  match s.values id with
  | some v => .ok v
  | none => .error (.undefinedValue id)

def getBlock (s : ConversionState) (id : LoweredBlockId) : Except PlironConversionError BlockPtr :=
  match s.blocks id with
  | some b => .ok b
  | none => .error (.undefinedBlock id)

def mapValue (s : ConversionState) (id : LoweredValueId) (v : Value) : ConversionState :=
  { s with values := Function.update s.values id (some v) }

def mapBlock (s : ConversionState) (id : LoweredBlockId) (b : BlockPtr) : ConversionState :=
  { s with blocks := Function.update s.blocks id (some b) }

/-- The ids of block parameters name the arguments of the block. -/
def mapParams (s : ConversionState) (params : List (LoweredValueId × LoweredType))
    (arguments : List Value) : ConversionState :=
  (params.zip arguments).foldl (fun s p => s.mapValue p.1.1 p.2) s

/-- An operation at the end of a block, with attributes. -/
def emit (s : ConversionState) (k : BlockPtr) (opcode : TwasmOpcode) (resultTypes : List PlironType)
    (operands : List Value) (successors : List BlockPtr) (attributes : List (String × StringAttr)) :
    TwasmOp × ConversionState :=
  let (op, F) := s.func.newOperation opcode resultTypes operands successors
  let op := { op with attributes := attributes }
  (op, { s with func := F.insertAtBack k op })

/-- An operation with one result, which the lowered id names from now on. -/
def emitResult (s : ConversionState) (k : BlockPtr) (opcode : TwasmOpcode) (ty : PlironType)
    (operands : List Value) (attributes : List (String × StringAttr)) (result : LoweredValueId) :
    ConversionState :=
  let (op, s) := s.emit k opcode [ty] operands [] attributes
  s.mapValue result (.result op.ptr 0 ty)

end ConversionState

/-- An attribute is set if its key is an identifier. -/
def stringAttr (identifier : String → Except String Unit) (key : String) (attr : StringAttr) :
    List (String × StringAttr) :=
  match identifier key with
  | .ok _ => [(key, attr)]
  | .error _ => []

def twasmOffsetAttr : String := "twasm.byte_offset"

/-- `set_load_store_offset`. -/
def loadStoreOffset (identifier : String → Except String Unit) (offset : Int) : List (String × StringAttr) :=
  stringAttr identifier twasmOffsetAttr (.number offset)

/-- `set_stack_alloc_attrs`. -/
def stackAllocAttrs (identifier : String → Except String Unit) (ty : LoweredType) (bytes : Nat) :
    List (String × StringAttr) :=
  stringAttr identifier "twasm.alloca_bytes" (.number bytes) ++
    stringAttr identifier "twasm.alloca_elem" (.typeName ty)

/-- `emit_binary`. -/
def emitBinary (opcode : TwasmOpcode) (s : ConversionState) (k : BlockPtr) (ty : LoweredType)
    (lhs rhs result : LoweredValueId) : Except PlironConversionError ConversionState := do
  let lhs ← s.getValue lhs
  let rhs ← s.getValue rhs
  let ty ← translateType ty
  return s.emitResult k opcode ty [lhs, rhs] [] result

/-- `emit_unary_cast`. -/
def emitUnaryCast (opcode : TwasmOpcode) (s : ConversionState) (k : BlockPtr) (toTy : LoweredType)
    (src result : LoweredValueId) : Except PlironConversionError ConversionState := do
  let src ← s.getValue src
  let ty ← translateType toTy
  return s.emitResult k opcode ty [src] [] result

def emitOp (identifier : String → Except String Unit) (s : ConversionState) (k : BlockPtr) :
    LoweredOp → Except PlironConversionError ConversionState
  | .arith .addI ty lhs rhs result => emitBinary .addi s k ty lhs rhs result
  | .arith .subI ty lhs rhs result => emitBinary .subi s k ty lhs rhs result
  | .arith .mulI ty lhs rhs result => emitBinary .muli s k ty lhs rhs result
  | .float .addF ty lhs rhs result => emitBinary .addf s k ty lhs rhs result
  | .float .subF ty lhs rhs result => emitBinary .subf s k ty lhs rhs result
  | .float .mulF ty lhs rhs result => emitBinary .mulf s k ty lhs rhs result
  | .load ty base offset result => do
    let base ← s.getValue base
    let ty ← translateType ty
    return s.emitResult k .load ty [base] (loadStoreOffset identifier offset) result
  | .store _ value base offset => do
    let value ← s.getValue value
    let base ← s.getValue base
    return (s.emit k .store [] [value, base] [] (loadStoreOffset identifier offset)).2
  | .br target args => do
    let target ← s.getBlock target
    let operands ← args.mapM s.getValue
    return (s.emit k .br [] operands [target] []).2
  | .condBr cond thenTarget thenArgs elseTarget elseArgs => do
    let cond ← s.getValue cond
    let thenTarget ← s.getBlock thenTarget
    let elseTarget ← s.getBlock elseTarget
    let args ← (thenArgs ++ elseArgs).mapM s.getValue
    return (s.emit k .condBr [] (cond :: args) [thenTarget, elseTarget] []).2
  | .return values => do
    let operands ← values.mapM s.getValue
    return (s.emit k .return [] operands [] []).2
  | .stackAlloc ty bytes result => do
    let ptrTy ← translateType .ptr
    return s.emitResult k .alloca ptrTy [] (stackAllocAttrs identifier ty bytes) result
  | .select ty cond thenV elseV result => do
    let cond ← s.getValue cond
    let thenV ← s.getValue thenV
    let elseV ← s.getValue elseV
    let ty ← translateType ty
    return s.emitResult k .select ty [cond, thenV, elseV] [] result
  | .conv .bitcast _ toTy src result => emitUnaryCast .bitcast s k toTy src result
  | .conv .truncI _ toTy src result => emitUnaryCast .trunci s k toTy src result
  | .conv .extendU _ toTy src result => emitUnaryCast .extui s k toTy src result
  | .conv .extendS _ toTy src result => emitUnaryCast .extsi s k toTy src result
  | .arith .divS _ _ _ _ => .error (.notYetWired "DivS")
  | .arith .divU _ _ _ _ => .error (.notYetWired "DivU")
  | .arith .remS _ _ _ _ => .error (.notYetWired "RemS")
  | .arith .remU _ _ _ _ => .error (.notYetWired "RemU")
  | .float .divF _ _ _ _ => .error (.notYetWired "DivF")
  | .fma _ _ _ _ _ => .error (.notYetWired "Fma")
  | .fNeg _ _ _ => .error (.notYetWired "FNeg")
  | .fAbs _ _ _ => .error (.notYetWired "FAbs")
  | .switch _ _ _ => .error (.notYetWired "Switch")
  | .vMin _ _ _ _ _ => .error (.notYetWired "VMin")
  | .vMax _ _ _ _ _ => .error (.notYetWired "VMax")
  | .vSplat _ _ _ => .error (.notYetWired "VSplat")
  | .vSelect _ _ _ _ _ => .error (.notYetWired "VSelect")
  | .vAllTrue _ _ => .error (.notYetWired "VAllTrue")
  | .vAnyTrue _ _ => .error (.notYetWired "VAnyTrue")

/-- The blocks other than the entry block, each at the end of the region. -/
def makeBlock (entry : LoweredBlockId) (s : ConversionState) (b : LoweredBlock) :
    Except PlironConversionError ConversionState := do
  if b.id = entry then
    return s
  else
    let argTypes ← (b.params.map Prod.snd).mapM translateType
    let k := s.func.blocks.length
    let s := { s with func := s.func.newBlock argTypes }
    return (s.mapParams b.params ((⟨argTypes, []⟩ : BasicBlock TwasmOpcode).arguments k)).mapBlock b.id k

/-- The operations of a block, in order. -/
def emitBlock (identifier : String → Except String Unit) (s : ConversionState) (b : LoweredBlock) :
    Except PlironConversionError ConversionState := do
  let k ← s.getBlock b.id
  b.ops.foldlM (fun s op => emitOp identifier s k op) s

def loweredFunctionToPliron (identifier : String → Except String Unit) (L : LoweredFunction) :
    Except PlironConversionError TwasmFunc := do
  let params ← L.signature.params.mapM translateType
  let returns ← L.signature.returns.mapM translateType
  match identifier L.name with
  | .error e => .error (.context s!"invalid function name: {e}")
  | .ok _ =>
    match L.blocks.find? (·.id == L.entry) with
    | none => .error (.undefinedBlock L.entry)
    | some entry =>
      let func : TwasmFunc := .new L.name params returns
      if params.length < entry.params.length then
        .error (.context
          s!"entry block has {entry.params.length} params but FuncOp entry block has {params.length} args")
      else
        let arguments := (⟨params, []⟩ : BasicBlock TwasmOpcode).arguments 0
        let s := (ConversionState.mk func (fun _ => none) (fun _ => none)).mapParams entry.params arguments
        let s := s.mapBlock entry.id 0
        let s ← L.blocks.foldlM (makeBlock L.entry) s
        let s ← L.blocks.foldlM (emitBlock identifier) s
        return s.func

end TensorWasm.Pliron
