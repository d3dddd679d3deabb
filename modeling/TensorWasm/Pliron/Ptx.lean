import TensorWasm.Pliron.Lowering

/-!
# From the `twasm` dialect to the LLVM dialect

`twasm_to_llvm_dialect` builds a new function: its blocks first, and then the operations, one by one in
the order of the region. Without the `pliron-llvm-backend` feature the stage is a stub.
-/

namespace TensorWasm.Pliron

/-- The operations of the `llvm` dialect the rewrite emits, and the one an offset is meant to fold
into. -/
inductive LlvmOpcode
  | add | sub | mul | fadd | fsub | fmul
  | intToPtr | getElementPtr (bytes : Int) | load | store
  | br | condBr | return

abbrev LlvmOp := Operation LlvmOpcode
abbrev LlvmFunc := FuncOp LlvmOpcode

/-- The texts of `PtxError::Lowering`; two of them print a value or a block. -/
inductive LoweringText
  | message (text : String)
  | unmappedValue (v : Value)
  | unmappedBlock (b : BlockPtr)

inductive PtxError
  | unsupportedOp (op : String)
  | notYetWired (stage : String)
  | lowering (text : LoweringText)
  | pliron (err : PlironConversionError)

/-- `RewriteState`, with the function under construction. -/
structure RewriteState where
  func : LlvmFunc
  values : Value → Option Value
  blocks : BlockPtr → Option BlockPtr

namespace RewriteState

def mapValue (s : RewriteState) (v : Value) : Except PtxError Value :=
  match s.values v with
  | some v' => .ok v'
  | none => .error (.lowering (.unmappedValue v))

def mapBlock (s : RewriteState) (b : BlockPtr) : Except PtxError BlockPtr :=
  match s.blocks b with
  | some b' => .ok b'
  | none => .error (.lowering (.unmappedBlock b))

/-- The values on the left become those on the right. -/
def insertValues (s : RewriteState) (old new : List Value) : RewriteState :=
  { s with values := (old.zip new).foldl (fun m p => Function.update m p.1 (some p.2)) s.values }

/-- `Operation::new`: created, not inserted. -/
def create (s : RewriteState) (opcode : LlvmOpcode) (resultTypes : List PlironType)
    (operands : List Value) (successors : List BlockPtr) : LlvmOp × RewriteState :=
  let (op, F) := s.func.newOperation opcode resultTypes operands successors
  (op, { s with func := F })

def insertAtBack (s : RewriteState) (k : BlockPtr) (op : LlvmOp) : RewriteState :=
  { s with func := s.func.insertAtBack k op }

/-- Created and inserted. -/
def append (s : RewriteState) (k : BlockPtr) (opcode : LlvmOpcode) (resultTypes : List PlironType)
    (operands : List Value) (successors : List BlockPtr) : LlvmOp × RewriteState :=
  let (op, s) := s.create opcode resultTypes operands successors
  (op, s.insertAtBack k op)

end RewriteState

def missing (text : String) : PtxError := .lowering (.message text)

/-- An element of a list, or an error. -/
def required {α : Type} (l : List α) (idx : Nat) (text : String) : Except PtxError α :=
  match l[idx]? with
  | some a => .ok a
  | none => .error (missing text)

/-- `emit_int_binop` and `emit_float_binop`. The operation has the type of its left operand, and it is
not inserted. -/
def emitBinop (kind : String) (opcode : LlvmOpcode) (s : RewriteState) (operands : List Value) :
    Except PtxError (LlvmOp × RewriteState) := do
  let lhs ← required operands 0 s!"{kind} binop missing lhs operand"
  let rhs ← required operands 1 s!"{kind} binop missing rhs operand"
  return s.create opcode [lhs.type] [lhs, rhs] []

def emitIntBinop (opcode : LlvmOpcode) (s : RewriteState) (operands : List Value) :
    Except PtxError (LlvmOp × RewriteState) :=
  emitBinop "integer" opcode s operands

def emitFloatBinop (opcode : LlvmOpcode) (s : RewriteState) (operands : List Value) :
    Except PtxError (LlvmOp × RewriteState) :=
  emitBinop "float" opcode s operands

/-- `cast_int_to_ptr`. -/
def castIntToPtr (s : RewriteState) (k : BlockPtr) (v : Value) : Value × RewriteState :=
  let (op, s) := s.append k .intToPtr [.pointer] [v] []
  (.result op.ptr 0 .pointer, s)

/-- The new operation for an input operation whose operands and successors are mapped. -/
def rewriteMapped (s : RewriteState) (k : BlockPtr) (op : TwasmOp) (operands : List Value)
    (successors : List BlockPtr) : Except PtxError (LlvmOp × RewriteState) :=
  match op.opcode with
  | .addi => emitIntBinop .add s operands
  | .subi => emitIntBinop .sub s operands
  | .muli => emitIntBinop .mul s operands
  | .addf => emitFloatBinop .fadd s operands
  | .subf => emitFloatBinop .fsub s operands
  | .mulf => emitFloatBinop .fmul s operands
  | .load => do
    let base ← required operands 0 "twasm.load missing base operand"
    let resTy ← required op.resultTypes 0 "twasm.load missing result type"
    let (ptr, s) := castIntToPtr s k base
    return s.append k .load [resTy] [ptr] []
  | .store => do
    let value ← required operands 0 "twasm.store missing value operand"
    let base ← required operands 1 "twasm.store missing base operand"
    let (ptr, s) := castIntToPtr s k base
    return s.append k .store [] [value, ptr] []
  | .br => do
    let dest ← required successors 0 "twasm.br missing successor"
    return s.append k .br [] operands [dest]
  | .condBr => do
    let cond ← required operands 0 "twasm.cond_br missing condition"
    let thenDest ← required successors 0 "twasm.cond_br missing then successor"
    let elseDest ← required successors 1 "twasm.cond_br missing else successor"
    -- The operands of the two branches are left out.
    return s.append k .condBr [] [cond] [thenDest, elseDest]
  | .return =>
    if 1 < operands.length then
      .error (.unsupportedOp
        s!"{op.opcode.opid} with {operands.length} results (only 0 or 1 supported)")
    else
      .ok (s.append k .return [] operands [])
  | other => .error (.unsupportedOp other.opid)

/-- `rewrite_op`. -/
def rewriteOp (s : RewriteState) (k : BlockPtr) (op : TwasmOp) : Except PtxError RewriteState := do
  let operands ← op.operands.mapM s.mapValue
  let successors ← op.successors.mapM s.mapBlock
  let (newOp, s) ← rewriteMapped s k op operands successors
  return s.insertValues op.results newOp.results

/-- A block of the output for an input block after the first. -/
def copyBlock (s : RewriteState) (blk : BasicBlock TwasmOpcode × BlockPtr) : RewriteState :=
  let k := s.func.blocks.length
  let s := { s with func := s.func.newBlock blk.1.argTypes }
  let s := s.insertValues (blk.1.arguments blk.2)
    ((⟨blk.1.argTypes, []⟩ : BasicBlock LlvmOpcode).arguments k)
  { s with blocks := Function.update s.blocks blk.2 (some k) }

/-- The operations of a block, in order. -/
def rewriteBlock (s : RewriteState) (blk : BasicBlock TwasmOpcode × BlockPtr) :
    Except PtxError RewriteState := do
  let k ← s.mapBlock blk.2
  blk.1.ops.foldlM (fun s op => rewriteOp s k op) s

/-- `twasm_to_llvm_dialect`. -/
def twasmToLlvmDialect (llvmBackend : Bool) (func : TwasmFunc) : Except PtxError LlvmFunc :=
  if llvmBackend then
    match func.blocks with
    | [] => .error (missing "input function has no blocks")
    | entry :: _ => do
      let out : LlvmFunc := .new func.name func.params func.returns
      let s : RewriteState := ⟨out, fun _ => none, fun _ => none⟩
      let s := s.insertValues (entry.arguments 0)
        ((⟨func.params, []⟩ : BasicBlock LlvmOpcode).arguments 0)
      let s := { s with blocks := Function.update s.blocks 0 (some 0) }
      let s := (func.blocks.zipIdx.drop 1).foldl copyBlock s
      let s ← func.blocks.zipIdx.foldlM rewriteBlock s
      return s.func
  else
    .error (.notYetWired "twasm_to_llvm_dialect")

end TensorWasm.Pliron
