import TensorWasm.Lib.Cfg

/-!
# The lowered IR

The intermediate form between Cranelift and the Pliron dialects: one operation per row of the mapping
table, blocks with parameters, and value ids that are meant to be in SSA form.
-/

namespace TensorWasm.Clif

/-- Value ids and block ids are numbered independently. -/
abbrev LoweredValueId := Nat
abbrev LoweredBlockId := Nat

inductive LoweredType
  | i8 | i16 | i32 | i64 | f32 | f64
  | ptr
  | bool
  | v128 (laneType : LoweredType) (lanes : Nat)

namespace LoweredType

def isInt : LoweredType → Bool
  | i8 | i16 | i32 | i64 => true
  | _ => false

def scalarBits : LoweredType → Option Nat
  | i8 => some 8
  | i16 => some 16
  | i32 | f32 => some 32
  | i64 | f64 => some 64
  | _ => none

end LoweredType

/-- The seven integer operations `AddI` to `RemU`. -/
inductive ArithKind
  | addI | subI | mulI | divS | divU | remS | remU

/-- The four two-operand float operations. -/
inductive FloatKind
  | addF | subF | mulF | divF

/-- The four conversions, which share their fields. -/
inductive ConvKind
  | bitcast | truncI | extendU | extendS

/-- The operations. Those of one family that carry the same fields are one constructor with a kind. -/
inductive LoweredOp
  | arith (kind : ArithKind) (ty : LoweredType) (lhs rhs result : LoweredValueId)
  | float (kind : FloatKind) (ty : LoweredType) (lhs rhs result : LoweredValueId)
  | fma (ty : LoweredType) (a b c result : LoweredValueId)
  | fNeg (ty : LoweredType) (src result : LoweredValueId)
  | fAbs (ty : LoweredType) (src result : LoweredValueId)
  | load (ty : LoweredType) (base : LoweredValueId) (offset : Int) (result : LoweredValueId)
  | store (ty : LoweredType) (value base : LoweredValueId) (offset : Int)
  | stackAlloc (ty : LoweredType) (bytes : Nat) (result : LoweredValueId)
  | br (target : LoweredBlockId) (args : List LoweredValueId)
  | condBr (cond : LoweredValueId) (thenTarget : LoweredBlockId) (thenArgs : List LoweredValueId)
      (elseTarget : LoweredBlockId) (elseArgs : List LoweredValueId)
  | switch (value : LoweredValueId) (defaultTarget : LoweredBlockId)
      (cases : List (Nat × LoweredBlockId))
  | return (values : List LoweredValueId)
  | vMin (laneTy : LoweredType) (signed : Bool) (lhs rhs result : LoweredValueId)
  | vMax (laneTy : LoweredType) (signed : Bool) (lhs rhs result : LoweredValueId)
  | vSplat (laneTy : LoweredType) (src result : LoweredValueId)
  | vSelect (laneTy : LoweredType) (cond thenV elseV result : LoweredValueId)
  | vAllTrue (src result : LoweredValueId)
  | vAnyTrue (src result : LoweredValueId)
  | select (ty : LoweredType) (cond thenV elseV result : LoweredValueId)
  | conv (kind : ConvKind) (fromTy toTy : LoweredType) (src result : LoweredValueId)

namespace LoweredOp

def result : LoweredOp → Option LoweredValueId
  | arith _ _ _ _ result | float _ _ _ _ result | fma _ _ _ _ result | fNeg _ _ result
  | fAbs _ _ result | load _ _ _ result | stackAlloc _ _ result | vMin _ _ _ _ result
  | vMax _ _ _ _ result | vSplat _ _ result | vSelect _ _ _ _ result | vAllTrue _ result
  | vAnyTrue _ result | select _ _ _ _ result | conv _ _ _ _ result => some result
  | store _ _ _ _ | br _ _ | condBr _ _ _ _ _ | switch _ _ _ | .return _ => none

def isTerminator : LoweredOp → Bool
  | br _ _ | condBr _ _ _ _ _ | switch _ _ _ | .return _ => true
  | _ => false

/-- Every value id the operation reads. -/
def operands : LoweredOp → List LoweredValueId
  | arith _ _ lhs rhs _ | float _ _ lhs rhs _ | vMin _ _ lhs rhs _ | vMax _ _ lhs rhs _ => [lhs, rhs]
  | fma _ a b c _ => [a, b, c]
  | fNeg _ src _ | fAbs _ src _ | vSplat _ src _ | vAllTrue src _ | vAnyTrue src _
  | conv _ _ _ src _ => [src]
  | load _ base _ _ => [base]
  | store _ value base _ => [value, base]
  | stackAlloc _ _ _ => []
  | br _ args => args
  | condBr cond _ thenArgs _ elseArgs => cond :: (thenArgs ++ elseArgs)
  | switch value _ _ => [value]
  | .return values => values
  | vSelect _ cond thenV elseV _ | select _ cond thenV elseV _ => [cond, thenV, elseV]

/-- The blocks the operation can transfer control to. -/
def targets : LoweredOp → List LoweredBlockId
  | br target _ => [target]
  | condBr _ thenTarget _ elseTarget _ => [thenTarget, elseTarget]
  | switch _ defaultTarget cases => defaultTarget :: cases.map Prod.snd
  | _ => []

end LoweredOp

structure LoweredSignature where
  params : List LoweredType
  returns : List LoweredType

structure LoweredBlock where
  id : LoweredBlockId
  params : List (LoweredValueId × LoweredType)
  ops : List LoweredOp

structure LoweredFunction where
  name : String
  signature : LoweredSignature
  blocks : List LoweredBlock
  entry : LoweredBlockId

/-- The ids of the parameters of a block. -/
def LoweredBlock.paramIds (b : LoweredBlock) : List LoweredValueId := b.params.map Prod.fst

/-- The ids a list of operations defines. -/
def opResults (ops : List LoweredOp) : List LoweredValueId := ops.filterMap LoweredOp.result

@[simp] theorem opResults_append (ops ops' : List LoweredOp) :
    opResults (ops ++ ops') = opResults ops ++ opResults ops' :=
  List.filterMap_append

namespace LoweredFunction

/-- Every definition of the function: the parameters of all blocks, then the results of all
operations. -/
def defs (L : LoweredFunction) : List LoweredValueId :=
  L.blocks.flatMap (·.paramIds) ++ L.blocks.flatMap fun b => opResults b.ops

def Edge (L : LoweredFunction) (a b : LoweredBlockId) : Prop :=
  ∃ blk ∈ L.blocks, blk.id = a ∧ ∃ op ∈ blk.ops, b ∈ op.targets

def Dominates (L : LoweredFunction) (d u : LoweredBlockId) : Prop :=
  Lib.Dominates L.Edge L.entry d u

/-- SSA form: no id is defined twice, and every operand is defined by a definition that dominates the
use, that is by a parameter of the block, by an operation above it in the block, or in another block
that dominates this one. -/
structure SsaWellFormed (L : LoweredFunction) : Prop where
  defs_nodup : L.defs.Nodup
  dominated : ∀ b ∈ L.blocks, ∀ above op below, b.ops = above ++ op :: below → ∀ d ∈ op.operands,
    d ∈ b.paramIds ∨ d ∈ opResults above ∨
      ∃ other ∈ L.blocks, other.id ≠ b.id ∧ (d ∈ other.paramIds ∨ d ∈ opResults other.ops) ∧
        L.Dominates other.id b.id

end LoweredFunction

end TensorWasm.Clif
