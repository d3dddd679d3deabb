import TensorWasm.Clif.RejectList
import TensorWasm.Clif.Families

/-!
# The lowering driver

`lower_function`: the signature, the reject-list, ids for every block and every block parameter in
layout order, then one walk over the instructions that tries the families in turn.
-/

namespace TensorWasm.Clif

inductive SignatureLoweringError
  | unsupportedType (position : String) (ty : ClType)
  | unsupportedArgumentPurpose (position : String) (purpose : ArgumentPurpose)
  | unsupportedCallConv (conv : CallConv)

def isSupportedCallConv : CallConv → Bool
  | .systemV | .fast | .cold => true
  | _ => false

def lowerAbiParam (kind : String) (p : AbiParam) (idx : Nat) : Except SignatureLoweringError LoweredType :=
  if p.purpose ≠ .normal then
    .error (.unsupportedArgumentPurpose s!"{kind} {idx}" p.purpose)
  else
    match craneliftTypeToLowered p.valueType with
    | some ty => .ok ty
    | none => .error (.unsupportedType s!"{kind} {idx}" p.valueType)

/-- The parameters or the returns of a signature, numbered from `idx`. -/
def lowerAbiParams (kind : String) : Nat → List AbiParam →
    Except SignatureLoweringError (List LoweredType)
  | _, [] => .ok []
  | idx, p :: ps => do
    let ty ← lowerAbiParam kind p idx
    let tys ← lowerAbiParams kind (idx + 1) ps
    return ty :: tys

def lowerSignature (sig : Signature) : Except SignatureLoweringError LoweredSignature :=
  if isSupportedCallConv sig.callConv then do
    let params ← lowerAbiParams "param" 0 sig.params
    let returns ← lowerAbiParams "return" 0 sig.returns
    return ⟨params, returns⟩
  else
    .error (.unsupportedCallConv sig.callConv)

structure InstLocation where
  block : Nat
  instIndex : Nat

/-- What the text of an `UnsupportedType` error renders: a type, or a whole signature error. -/
inductive TypeText
  | type (ty : ClType)
  | signature (err : SignatureLoweringError)

inductive LoweringError
  | unsupportedOpcode (op : Opcode) (location : InstLocation)
  | unsupportedType (ty : TypeText) (location : InstLocation)
  | undefinedValue (value : Value) (location : InstLocation)
  | malformedTerminator (blockId : LoweredBlockId)
  | rejected (reason : RejectReason) (location : InstLocation)
  /-- The value counter of the memory family overflowed; the driver has no arm for this error. -/
  | ssaOverflow
  /-- Not an error value of the source: an `expect` on a counter or a map fails. -/
  | panicked (message : String)

/-- `bind_result_if_any`. -/
def bindResultIfAny (i : Inst) (op : LoweredOp) (b : LoweringBuilder) : LoweringBuilder :=
  match op.result, i.results with
  | some id, v :: _ => b.bindValue v id
  | _, _ => b

/-- The first result of a memory instruction is bound to the result of the last operation that has
one. -/
def bindMemoryResult (i : Inst) (ops : List LoweredOp) (b : LoweringBuilder) : LoweringBuilder :=
  match i.results, ops.reverse.findSome? LoweredOp.result with
  | v :: _, some id => b.bindValue v id
  | _, _ => b

def memoryError (location : InstLocation) : MemLowerError → LoweringError
  | .unmappedValue v => .undefinedValue v location
  | .unsupportedType ty => .unsupportedType (.type ty) location
  | .ssaOverflow => .ssaOverflow
  | .panicked message => .panicked message

def memoryAttempt (f : Function) (i : Inst) (location : InstLocation) (b : LoweringBuilder) :
    Except LoweringError (Option (List LoweredOp) × LoweringBuilder) :=
  match lowerMemoryInst f i b with
  | .ok r => .ok r
  | .error e => .error (memoryError location e)

/-- The families after the memory family. -/
def dispatchRest (f : Function) (i : Inst) (location : InstLocation) (b : LoweringBuilder) :
    Except LoweringError (List LoweredOp × LoweringBuilder) :=
  match lowerCfInst i b with
  | some op => .ok ([op], b)
  | none =>
    match lowerVectorInst f i b with
    | (some op, b) => .ok ([op], bindResultIfAny i op b)
    | (none, b) =>
      match lowerConvInst f i b with
      | (some op, b) => .ok ([op], bindResultIfAny i op b)
      | (none, _) => .error (.unsupportedOpcode i.data.opcode location)

/-- What the driver makes of the memory family's answer. -/
def dispatchMemory (f : Function) (i : Inst) (location : InstLocation) :
    Option (List LoweredOp) × LoweringBuilder → Except LoweringError (List LoweredOp × LoweringBuilder)
  | (some ops, b) => .ok (ops, bindMemoryResult i ops b)
  | (none, b) => dispatchRest f i location b

/-- `dispatch_inst`: the operations of one instruction, by the first family that takes it. -/
def dispatchInst (f : Function) (i : Inst) (location : InstLocation) (b : LoweringBuilder) :
    Except LoweringError (List LoweredOp × LoweringBuilder) :=
  match lowerArithInst f i b with
  | (some op, b) => .ok ([op], b)
  | (none, b) =>
    match lowerFloatInst f i b with
    | (some op, b) => .ok ([op], bindResultIfAny i op b)
    | (none, b) => do
      let answer ← memoryAttempt f i location b
      dispatchMemory f i location answer

/-- `get_or_alloc_block`. -/
def LoweringBuilder.getOrAllocBlock (b : LoweringBuilder) (block : Block) :
    Except LoweringError LoweringBuilder :=
  match b.blockMap block with
  | some _ => .ok b
  | none =>
    match checkedSucc b.nextBlockId with
    | some next =>
      .ok { b with blockMap := Function.update b.blockMap block (some b.nextBlockId),
                   nextBlockId := next }
    | none => .error (.panicked "LoweredBlockId counter overflowed u32 — function too large")

/-- `get_or_alloc_value`. -/
def LoweringBuilder.getOrAllocValue (b : LoweringBuilder) (v : Value) :
    Except LoweringError (LoweredValueId × LoweringBuilder) :=
  match b.valueMap v with
  | some id => .ok (id, b)
  | none =>
    match checkedSucc b.nextValueId with
    | some next => .ok (b.nextValueId, { b.bindValue v b.nextValueId with nextValueId := next })
    | none => .error (.panicked "LoweredValueId counter overflowed u32 — function too large")

/-- The ids of the parameters of one block. -/
def seedParams : List Value → LoweringBuilder →
    Except LoweringError (List (LoweredValueId × Value) × LoweringBuilder)
  | [], b => .ok ([], b)
  | v :: vs, b => do
    let (id, b) ← b.getOrAllocValue v
    let (rest, b) ← seedParams vs b
    return ((id, v) :: rest, b)

/-- Every block of the layout with the ids of its parameters. -/
def seedBlocks : List ClBlock → LoweringBuilder →
    Except LoweringError (List (ClBlock × List (LoweredValueId × Value)) × LoweringBuilder)
  | [], b => .ok ([], b)
  | blk :: blks, b => do
    let (params, b) ← seedParams blk.params b
    let (rest, b) ← seedBlocks blks b
    return ((blk, params) :: rest, b)

def lowerParam (f : Function) (blk : ClBlock) (param : LoweredValueId × Value) :
    Except LoweringError (LoweredValueId × LoweredType) :=
  match craneliftTypeToLowered (f.valueType param.2) with
  | some ty => .ok (param.1, ty)
  | none => .error (.unsupportedType (.type (f.valueType param.2)) ⟨blk.block, 0⟩)

/-- The instructions of a block, the first at index `k`. -/
def lowerInsts (f : Function) (block : Block) : Nat → List Inst → LoweringBuilder →
    Except LoweringError (List LoweredOp × LoweringBuilder)
  | _, [], b => .ok ([], b)
  | k, i :: is, b => do
    let (ops, b) ← dispatchInst f i ⟨block, k⟩ b
    let (rest, b) ← lowerInsts f block (k + 1) is b
    return (ops ++ rest, b)

def LoweringBuilder.expectBlock (b : LoweringBuilder) (block : Block) (message : String) :
    Except LoweringError LoweredBlockId :=
  match b.blockMap block with
  | some id => .ok id
  | none => .error (.panicked message)

def lowerBlocks (f : Function) : List (ClBlock × List (LoweredValueId × Value)) →
    LoweringBuilder → Except LoweringError (List LoweredBlock × LoweringBuilder)
  | [], b => .ok ([], b)
  | (blk, params) :: rest, b => do
    let blockId ← b.expectBlock blk.block "block pre-allocated above"
    let params ← params.mapM (lowerParam f blk)
    let (ops, b) ← lowerInsts f blk.block 0 blk.insts b
    let (blocks, b) ← lowerBlocks f rest b
    return (⟨blockId, params, ops⟩ :: blocks, b)

/-- The leading percent sign of a test-case name is not part of it, so it is the name itself. -/
def functionName (f : Function) : String :=
  match f.name with
  | .testcase name => name
  | .user ns index => s!"user{ns}_{index}"

def loweredSignature (f : Function) : Except LoweringError LoweredSignature :=
  match lowerSignature f.signature with
  | .ok sig => .ok sig
  | .error err => .error (.unsupportedType (.signature err) ⟨0, 0⟩)

/-- The entry block must exist. -/
def lowerEntry (f : Function) (b : LoweringBuilder) : Except LoweringError LoweredBlockId :=
  match f.layout.head? with
  | some blk => b.expectBlock blk.block "entry block pre-allocated above"
  | none => .error (.malformedTerminator 0)

def lowerFunction (f : Function) : Except LoweringError LoweredFunction := do
  let signature ← loweredSignature f
  match checkFunction f with
  | some rejection => .error (.rejected rejection.reason ⟨rejection.block, 0⟩)
  | none => do
    let b ← (f.layout.map (·.block)).foldlM LoweringBuilder.getOrAllocBlock .new
    let (seeded, b) ← seedBlocks f.layout b
    let (blocks, b) ← lowerBlocks f seeded b
    let entry ← lowerEntry f b
    return ⟨functionName f, signature, blocks, entry⟩

end TensorWasm.Clif
