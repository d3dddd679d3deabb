import TensorWasm.Clif.Syntax

/-!
# The reject-list

The scan every function passes before it is lowered: opcodes no PTX kernel can honour, and branches
to a block at or before the branching one.
-/

namespace TensorWasm.Clif

/-- Why an instruction is refused, with its mnemonic. The four reasons the source declares ahead of
use are left out: nothing constructs them. -/
inductive RejectReason
  | atomic (mnemonic : String)
  | strictFp (mnemonic : String)
  | hostCall (mnemonic : String)
  | floatOp (mnemonic : String)
  | intDivRem (mnemonic : String)
  | backEdge (mnemonic : String)
  | trap (mnemonic : String)

structure Rejection where
  inst : Inst
  block : Block
  reason : RejectReason

/-- The mnemonic of a float opcode, or none for an opcode that is not one. -/
def floatMnemonic : Opcode → Option String
  | .binary .fadd => some "fadd"
  | .binary .fsub => some "fsub"
  | .binary .fmul => some "fmul"
  | .binary .fdiv => some "fdiv"
  | .ternary .fma => some "fma"
  | .unary .fneg => some "fneg"
  | .unary .fabs => some "fabs"
  | .binary .fcopysign => some "fcopysign"
  | .binary .fmin => some "fmin"
  | .binary .fmax => some "fmax"
  | .unary .sqrt => some "sqrt"
  | .unary .ceil => some "ceil"
  | .unary .floor => some "floor"
  | .unary .trunc => some "trunc"
  | .unary .nearest => some "nearest"
  | .other .fcmp => some "fcmp"
  | .unary .fpromote => some "fpromote"
  | .unary .fdemote => some "fdemote"
  | .unary .fcvtFromSint => some "fcvt_from_sint"
  | .unary .fcvtFromUint => some "fcvt_from_uint"
  | .unary .fcvtToSint => some "fcvt_to_sint"
  | .unary .fcvtToUint => some "fcvt_to_uint"
  | _ => none

def classifyOpcode : Opcode → Option RejectReason
  | .other .atomicLoad => some (.atomic "atomic_load")
  | .other .atomicStore => some (.atomic "atomic_store")
  | .other .atomicRmw => some (.atomic "atomic_rmw")
  | .other .atomicCas => some (.atomic "atomic_cas")
  | .unary .fcvtToSintSat => some (.strictFp "fcvt_to_sint_sat")
  | .unary .fcvtToUintSat => some (.strictFp "fcvt_to_uint_sat")
  | .other .call => some (.hostCall "call")
  | .other .callIndirect => some (.hostCall "call_indirect")
  | .other .returnCall => some (.hostCall "return_call")
  | .other .returnCallIndirect => some (.hostCall "return_call_indirect")
  | .binary .sdiv => some (.intDivRem "sdiv")
  | .binary .udiv => some (.intDivRem "udiv")
  | .binary .srem => some (.intDivRem "srem")
  | .binary .urem => some (.intDivRem "urem")
  | .other .trap => some (.trap "trap")
  | .other .trapz => some (.trap "trapz")
  | .other .trapnz => some (.trap "trapnz")
  | .other .debugtrap => some (.trap "debugtrap")
  | op => (floatMnemonic op).map .floatOp

/-- `block_layout_order`: the position of a block in the layout. -/
def Function.layoutOrder (f : Function) (block : Block) : Option Nat :=
  f.layout.findIdx? (·.block == block)

def branchMnemonic : Opcode → String
  | .jump => "jump"
  | .brif => "brif"
  | .brTable => "br_table"
  | _ => "branch"

/-- The destination stands in the layout, at or before the branching block. -/
def Function.isBackEdge (f : Function) (blockIdx : Nat) (call : BlockCall) : Bool :=
  match f.layoutOrder call.block with
  | some targetIdx => decide (targetIdx ≤ blockIdx)
  | none => false

def backEdgeReason (f : Function) (i : Inst) (blockIdx : Nat) : Option RejectReason :=
  if i.data.branchDestination.any (f.isBackEdge blockIdx) then
    some (.backEdge (branchMnemonic i.data.opcode))
  else
    none

/-- The first reason to refuse an instruction. -/
def rejectInst (f : Function) (block : Block) (blockIdx : Nat) (i : Inst) : Option Rejection :=
  match classifyOpcode i.data.opcode with
  | some reason => some ⟨i, block, reason⟩
  | none => (backEdgeReason f i blockIdx).map fun reason => ⟨i, block, reason⟩

/-- `check_function`: the first rejection in layout order. -/
def checkFunction (f : Function) : Option Rejection :=
  f.layout.zipIdx.findSome? fun entry =>
    entry.1.insts.findSome? (rejectInst f entry.1.block entry.2)

/-- The body of the loop of `scan_function` over the instructions of a block. -/
def scanInst (f : Function) (block : Block) (blockIdx : Nat) (rejections : List Rejection) (i : Inst) :
    List Rejection :=
  match classifyOpcode i.data.opcode with
  | some reason => rejections ++ [⟨i, block, reason⟩]
  | none =>
    match backEdgeReason f i blockIdx with
    | some reason => rejections ++ [⟨i, block, reason⟩]
    | none => rejections

def scanBlock (f : Function) (rejections : List Rejection) (entry : ClBlock × Nat) : List Rejection :=
  entry.1.insts.foldl (scanInst f entry.1.block entry.2) rejections

/-- `scan_function`: every rejection in layout order. -/
def scanFunction (f : Function) : List Rejection := f.layout.zipIdx.foldl (scanBlock f) []

/-- An instruction of a function without a rejection is not on the list, and its destinations come
later in the layout. -/
theorem not_rejected {f : Function} (h : checkFunction f = none) {k : Nat} {blk : ClBlock}
    (hk : f.layout[k]? = some blk) {i : Inst} (hi : i ∈ blk.insts) :
    classifyOpcode i.data.opcode = none ∧
      ∀ call ∈ i.data.branchDestination, ∀ j, f.layoutOrder call.block = some j → k < j := by
  have hnone : rejectInst f blk.block k i = none := by
    have hblock := List.findSome?_eq_none_iff.mp h (blk, k)
      (List.mem_zipIdx_iff_getElem?.mpr hk)
    exact List.findSome?_eq_none_iff.mp hblock i hi
  unfold rejectInst at hnone
  cases hc : classifyOpcode i.data.opcode with
  | some reason =>
    rw [hc] at hnone
    exact absurd hnone (Option.some_ne_none _)
  | none =>
    refine ⟨rfl, ?_⟩
    intro call hcall j hj
    rw [hc] at hnone
    have hno : ¬ i.data.branchDestination.any (f.isBackEdge k) = true := by
      intro hany
      simp [backEdgeReason, hany] at hnone
    have hcallNo : f.isBackEdge k call ≠ true := fun hback =>
      hno (List.any_eq_true.mpr ⟨call, hcall, hback⟩)
    simp only [Function.isBackEdge, hj] at hcallNo
    exact Nat.lt_of_not_le fun hle => hcallNo (decide_eq_true hle)

end TensorWasm.Clif
