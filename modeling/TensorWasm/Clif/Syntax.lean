import Mathlib.Algebra.Group.Nat.Defs
import TensorWasm.Lib.Cfg

/-!
# Cranelift functions

The part of Cranelift's IR the Pliron lowering reads: types, instruction data by format, blocks in
layout order, and the facts Cranelift's verifier establishes about a function. Value aliases are left
out: only definitions enter the lowering's value map, so a function that reads an alias is refused.
-/

namespace TensorWasm.Clif

/-- Cranelift's entity references. -/
abbrev Value := Nat
abbrev Block := Nat
abbrev StackSlot := Nat

/-- Lane types. -/
inductive Scalar
  | i8 | i16 | i32 | i64 | i128 | f16 | f32 | f64 | f128 | r32 | r64

namespace Scalar

def bits : Scalar → Nat
  | i8 => 8
  | i16 | f16 => 16
  | i32 | f32 | r32 => 32
  | i64 | f64 | r64 => 64
  | i128 | f128 => 128

def isInt : Scalar → Bool
  | i8 | i16 | i32 | i64 | i128 => true
  | _ => false

end Scalar

/-- Types. A vector type encodes the logarithm of its lane count, which runs from 2 to 256. -/
inductive ClType
  | scalar (s : Scalar)
  | vector (lane : Scalar) (log2 : Fin 8)
  | dynamicVector (lane : Scalar) (log2 : Fin 8)

namespace ClType

def laneType : ClType → Scalar
  | scalar s => s
  | vector lane _ | dynamicVector lane _ => lane

/-- A scalar has one lane. A dynamic vector counts the lanes of its base vector. -/
def laneCount : ClType → Nat
  | scalar _ => 1
  | vector _ log2 | dynamicVector _ log2 => 2 ^ (log2.val + 1)

def isVector : ClType → Bool
  | vector _ _ => true
  | _ => false

def isScalarInt : ClType → Bool
  | scalar s => s.isInt
  | _ => false

theorem laneCount_pos (ty : ClType) : 0 < ty.laneCount := by
  cases ty with
  | scalar s => exact Nat.one_pos
  | vector lane log2 | dynamicVector lane log2 => exact Nat.two_pow_pos _

end ClType

/-- Opcodes of the two-operand format that the lowering or the reject-list names. -/
inductive BinaryOpcode
  | iadd | isub | imul | sdiv | udiv | srem | urem
  | smin | umin | smax | umax
  | fadd | fsub | fmul | fdiv | fcopysign | fmin | fmax
  | unlisted (mnemonic : String)

/-- The opcodes whose operands and result share one integer type. -/
def BinaryOpcode.isIntegerOp : BinaryOpcode → Bool
  | .iadd | .isub | .imul | .sdiv | .udiv | .srem | .urem | .smin | .umin | .smax | .umax => true
  | _ => false

/-- Opcodes of the one-operand format. -/
inductive UnaryOpcode
  | splat | vallTrue | vanyTrue | ireduce | uextend | sextend
  | fneg | fabs | sqrt | ceil | floor | trunc | nearest | fpromote | fdemote
  | fcvtFromSint | fcvtFromUint | fcvtToSint | fcvtToUint | fcvtToSintSat | fcvtToUintSat
  | unlisted (mnemonic : String)

/-- Opcodes of the three-operand format. -/
inductive TernaryOpcode
  | select | bitselect | fma
  | unlisted (mnemonic : String)

/-- Opcodes of the formats no lowering family reads. -/
inductive OtherOpcode
  | atomicLoad | atomicStore | atomicRmw | atomicCas
  | call | callIndirect | returnCall | returnCallIndirect
  | trap | trapz | trapnz | debugtrap
  | fcmp
  | unlisted (mnemonic : String)

inductive Opcode
  | binary (op : BinaryOpcode)
  | unary (op : UnaryOpcode)
  | ternary (op : TernaryOpcode)
  | bitcast | load | store | stackLoad | stackStore
  | jump | brif | brTable | return
  | other (op : OtherOpcode)

inductive Endianness
  | little | big

/-- Memory flags; without an explicit endianness an access is native-endian. -/
structure MemFlags where
  endianness : Option Endianness

/-- A branch destination with the values passed to its parameters. -/
structure BlockCall where
  block : Block
  args : List Value

/-- Instruction data, one constructor per format. A jump table stands with its instruction. -/
inductive InstData
  | binary (op : BinaryOpcode) (lhs rhs : Value)
  | unary (op : UnaryOpcode) (arg : Value)
  | ternary (op : TernaryOpcode) (x y z : Value)
  | bitcast (flags : MemFlags) (arg : Value)
  | load (flags : MemFlags) (arg : Value) (offset : Int)
  | store (flags : MemFlags) (value base : Value) (offset : Int)
  | stackLoad (slot : StackSlot) (offset : Int)
  | stackStore (arg : Value) (slot : StackSlot) (offset : Int)
  | jump (destination : BlockCall)
  | brif (arg : Value) (thenCall elseCall : BlockCall)
  | brTable (arg : Value) (default : BlockCall) (table : List BlockCall)
  | multiAryReturn (args : List Value)
  | other (op : OtherOpcode) (args : List Value)

namespace InstData

def opcode : InstData → Opcode
  | binary op _ _ => .binary op
  | unary op _ => .unary op
  | ternary op _ _ _ => .ternary op
  | bitcast _ _ => .bitcast
  | load _ _ _ => .load
  | store _ _ _ _ => .store
  | stackLoad _ _ => .stackLoad
  | stackStore _ _ _ => .stackStore
  | jump _ => .jump
  | brif _ _ _ => .brif
  | brTable _ _ _ => .brTable
  | multiAryReturn _ => .return
  | other op _ => .other op

/-- `inst_args`: the operands, without those passed to branch destinations. -/
def args : InstData → List Value
  | binary _ lhs rhs => [lhs, rhs]
  | unary _ arg => [arg]
  | ternary _ x y z => [x, y, z]
  | bitcast _ arg => [arg]
  | load _ arg _ => [arg]
  | store _ value base _ => [value, base]
  | stackLoad _ _ => []
  | stackStore arg _ _ => [arg]
  | jump _ => []
  | brif arg _ _ => [arg]
  | brTable arg _ _ => [arg]
  | multiAryReturn args => args
  | other _ args => args

/-- `branch_destination`: every successor, the default of a jump table first. -/
def branchDestination : InstData → List BlockCall
  | jump destination => [destination]
  | brif _ thenCall elseCall => [thenCall, elseCall]
  | brTable _ default table => default :: table
  | _ => []

/-- Every value the instruction reads. -/
def uses (data : InstData) : List Value := data.args ++ data.branchDestination.flatMap (·.args)

/-- The stack slot the instruction accesses. -/
def slot? : InstData → Option StackSlot
  | stackLoad slot _ => some slot
  | stackStore _ slot _ => some slot
  | _ => none

def isTerminator : InstData → Bool
  | jump _ | brif _ _ _ | brTable _ _ _ | multiAryReturn _ => true
  | other .trap _ | other .returnCall _ | other .returnCallIndirect _ => true
  | _ => false

end InstData

structure Inst where
  data : InstData
  results : List Value

/-- A block with its parameters and its instructions in layout order. -/
structure ClBlock where
  block : Block
  params : List Value
  insts : List Inst

inductive CallConv
  | fast | cold | tail | systemV | windowsFastcall | appleAarch64 | probestack | winch

inductive ArgumentPurpose
  | normal | structArgument (size : Nat) | structReturn | vmContext
  deriving DecidableEq

structure AbiParam where
  valueType : ClType
  purpose : ArgumentPurpose

structure Signature where
  params : List AbiParam
  returns : List AbiParam
  callConv : CallConv

inductive UserFuncName
  | testcase (name : String)
  | user (ns index : Nat)

structure Function where
  name : UserFuncName
  signature : Signature
  layout : List ClBlock
  valueType : Value → ClType
  stackSlotSize : StackSlot → Nat

namespace Function

def insts (f : Function) : List Inst := f.layout.flatMap (·.insts)

/-- The parameters of every block, in layout order. -/
def params (f : Function) : List Value := f.layout.flatMap (·.params)

def results (f : Function) : List Value := f.insts.flatMap (·.results)

def Edge (f : Function) (a b : Block) : Prop :=
  ∃ blk ∈ f.layout, blk.block = a ∧ ∃ i ∈ blk.insts, ∃ call ∈ i.data.branchDestination, call.block = b

/-- `d` dominates `u` on every path from the entry block, the first of the layout. -/
def Dominates (f : Function) (d u : Block) : Prop :=
  ∀ blk ∈ f.layout.head?, Lib.Dominates f.Edge blk.block d u

def Reachable (f : Function) (u : Block) : Prop :=
  ∃ blk ∈ f.layout.head?, ∃ p, Lib.Path f.Edge blk.block u p

end Function

def ClBlock.defs (blk : ClBlock) : List Value := blk.params ++ blk.insts.flatMap (·.results)

/-- The value is defined above this point: a parameter of the block, a result of an instruction that
stands before it in the block, or defined in another block that dominates this one. -/
def Function.Available (f : Function) (blk : ClBlock) (above : List Inst) (v : Value) : Prop :=
  v ∈ blk.params ∨ v ∈ above.flatMap (·.results) ∨
    ∃ other ∈ f.layout, other.block ≠ blk.block ∧ v ∈ other.defs ∧ f.Dominates other.block blk.block

/-- The arguments of a branch have the types of the parameters of its target. -/
def Function.CallTyped (f : Function) (call : BlockCall) : Prop :=
  ∃ blk ∈ f.layout, blk.block = call.block ∧ call.args.map f.valueType = blk.params.map f.valueType

/-- The typing rules of the verifier for the opcodes the lowering reads. -/
def Function.InstTyped (f : Function) (i : Inst) : Prop :=
  match i.data with
  | .binary op lhs rhs =>
    op.isIntegerOp = true → ∃ d, i.results = [d] ∧ f.valueType lhs = f.valueType d ∧
      f.valueType rhs = f.valueType d ∧ (f.valueType d).laneType.isInt = true
  | .unary .splat arg =>
    ∃ d, i.results = [d] ∧ f.valueType arg = .scalar (f.valueType d).laneType ∧ ∀ s, f.valueType d ≠ .scalar s
  | .unary .vallTrue arg | .unary .vanyTrue arg =>
    ∃ d, i.results = [d] ∧ f.valueType d = .scalar .i8 ∧ (f.valueType arg).isVector = true
  | .unary .ireduce arg =>
    ∃ d, i.results = [d] ∧ (f.valueType d).isScalarInt = true ∧
      (f.valueType arg).isScalarInt = true ∧ (f.valueType d).laneType.bits < (f.valueType arg).laneType.bits
  | .unary .uextend arg | .unary .sextend arg =>
    ∃ d, i.results = [d] ∧ (f.valueType d).isScalarInt = true ∧
      (f.valueType arg).isScalarInt = true ∧ (f.valueType arg).laneType.bits < (f.valueType d).laneType.bits
  | .ternary .select c x y =>
    ∃ d, i.results = [d] ∧ (f.valueType c).isScalarInt = true ∧ f.valueType x = f.valueType d ∧
      f.valueType y = f.valueType d
  | .ternary .bitselect c x y =>
    ∃ d, i.results = [d] ∧ f.valueType c = f.valueType d ∧ f.valueType x = f.valueType d ∧
      f.valueType y = f.valueType d
  | .bitcast _ arg =>
    ∃ d, i.results = [d] ∧
      (f.valueType arg).laneCount * (f.valueType arg).laneType.bits =
        (f.valueType d).laneCount * (f.valueType d).laneType.bits
  | .load _ arg _ =>
    ∃ d, i.results = [d] ∧ (f.valueType arg = .scalar .i32 ∨ f.valueType arg = .scalar .i64)
  | .store _ _ base _ =>
    i.results = [] ∧ (f.valueType base = .scalar .i32 ∨ f.valueType base = .scalar .i64)
  | .stackLoad _ _ => ∃ d, i.results = [d]
  | .stackStore _ _ _ => i.results = []
  | .jump destination => i.results = [] ∧ f.CallTyped destination
  | .brif arg thenCall elseCall =>
    i.results = [] ∧ (f.valueType arg).isScalarInt = true ∧ f.CallTyped thenCall ∧ f.CallTyped elseCall
  | .brTable arg default table =>
    i.results = [] ∧ f.valueType arg = .scalar .i32 ∧ f.CallTyped default ∧ ∀ call ∈ table, f.CallTyped call
  | .multiAryReturn args =>
    i.results = [] ∧ args.map f.valueType = f.signature.returns.map (·.valueType)
  | _ => True

/-- What Cranelift's verifier establishes. Dominance is checked for reachable uses only. -/
structure Verified (f : Function) : Prop where
  blocks_nodup : (f.layout.map (·.block)).Nodup
  defs_nodup : (f.params ++ f.results).Nodup
  terminated : ∀ blk ∈ f.layout, ∃ body last, blk.insts = body ++ [last] ∧
    last.data.isTerminator = true ∧ ∀ i ∈ body, i.data.isTerminator = false
  entry_params : ∀ blk ∈ f.layout.head?, blk.params.map f.valueType = f.signature.params.map (·.valueType)
  typed : ∀ i ∈ f.insts, f.InstTyped i
  available : ∀ blk ∈ f.layout, ∀ above i below, blk.insts = above ++ i :: below →
    ∀ v ∈ i.data.uses, f.Reachable blk.block → f.Available blk above v

end TensorWasm.Clif
