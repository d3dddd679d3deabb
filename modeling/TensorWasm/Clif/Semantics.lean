import TensorWasm.Clif.LoweredIr
import TensorWasm.Clif.Syntax
import TensorWasm.Lib.Bytes
import TensorWasm.Lib.Simulation

/-!
# Running a Cranelift function and a lowered function

Both forms run as a step function on configurations, over the same machine. A value is the list of its
lanes, a scalar having one, and an operation reads a lane at its own width. Stack slots are regions of
their own: no opcode that would give their address away is lowered. Opcodes the reject-list refuses have
no meaning here, and neither have the operations only they lower to.
-/

namespace TensorWasm.Clif

open Lib StateTransition

/-- Bytes by address. -/
abbrev Region := Int → UInt8

structure Machine where
  addressBits : Nat
  endianness : Endianness
  /-- What a stack slot holds before its first store. -/
  stackBytes : Region

/-- Addresses of the memory wrap around. -/
def Machine.wrap (M : Machine) (address : Int) : Int := address % 2 ^ M.addressBits

/-- The number that `bytes` bytes from `address` on denote, where `place` locates each of them. -/
def Region.read (r : Region) (place : Int → Int) (order : Endianness) (bytes : Nat) (address : Int) :
    Nat :=
  let content := (List.range bytes).map fun k => r (place (address + k))
  match order with
  | .little => ofLeBytes content
  | .big => ofLeBytes content.reverse

def Region.write (r : Region) (place : Int → Int) (order : Endianness) (bytes : Nat) (address : Int)
    (x : Nat) : Region :=
  let content := match order with
    | .little => leBytes bytes x
    | .big => (leBytes bytes x).reverse
  content.zipIdx.foldl (fun r p => Function.update r (place (address + p.2)) p.1) r

/-! ## Lanes -/

abbrev Lanes := List Nat

/-- An operation on bit vectors as an operation on lanes. -/
def onLanes {w : Nat} (op : BitVec w → BitVec w → BitVec w) (x y : Nat) : Nat :=
  (op (.ofNat w x) (.ofNat w y)).toNat

def onMaskedLanes {w : Nat} (op : BitVec w → BitVec w → BitVec w → BitVec w) (c x y : Nat) : Nat :=
  (op (.ofNat w c) (.ofNat w x) (.ofNat w y)).toNat

/-- Cranelift's two-operand integer opcodes. -/
def BinaryOpcode.lane (w : Nat) : BinaryOpcode → Option (BitVec w → BitVec w → BitVec w)
  | .iadd => some fun x y => x + y
  | .isub => some fun x y => x - y
  | .imul => some fun x y => x * y
  | .smin => some fun x y => if x.toInt ≤ y.toInt then x else y
  | .umin => some fun x y => if x.toNat ≤ y.toNat then x else y
  | .smax => some fun x y => if x.toInt ≤ y.toInt then y else x
  | .umax => some fun x y => if x.toNat ≤ y.toNat then y else x
  | _ => none

/-- `bitselect`: each bit of the mask chooses a bit. -/
def bitselect {w : Nat} (c x y : BitVec w) : BitVec w := (c &&& x) ||| (~~~c &&& y)

/-- The wrapping operations of the lowered IR. -/
def ArithKind.lane (w : Nat) : ArithKind → Option (BitVec w → BitVec w → BitVec w)
  | .addI => some fun x y => x + y
  | .subI => some fun x y => x - y
  | .mulI => some fun x y => x * y
  | _ => none

def laneLt {w : Nat} (signed : Bool) (x y : BitVec w) : Bool := if signed then x.slt y else x.ult y

/-- `VMin` on a lane. -/
def laneMin {w : Nat} (signed : Bool) (x y : BitVec w) : BitVec w := if laneLt signed x y then x else y

/-- `VMax` on a lane. -/
def laneMax {w : Nat} (signed : Bool) (x y : BitVec w) : BitVec w := if laneLt signed x y then y else x

/-- `VSelect` on a lane: the mask lane is true when it is not zero. -/
def laneSelect {w : Nat} (c x y : BitVec w) : BitVec w := if c ≠ 0 then x else y

/-! ## Cranelift -/

structure Frame where
  env : Value → Option Lanes
  memory : Region
  slots : StackSlot → Region

inductive Config
  | running (insts : List Inst) (frame : Frame)
  | returned (memory : Region) (values : List Lanes)

namespace Frame

def initial (M : Machine) (memory : Region) : Frame := ⟨fun _ => none, memory, fun _ => M.stackBytes⟩

def scalar (fr : Frame) (v : Value) : Option Nat :=
  match fr.env v with
  | some [x] => some x
  | _ => none

def set (fr : Frame) (v : Value) (xs : Lanes) : Frame :=
  { fr with env := Function.update fr.env v (some xs) }

/-- The values are all read before the first parameter is set. -/
def bind (fr : Frame) (params : List Value) (values : List Lanes) : Frame :=
  (params.zip values).foldl (fun fr p => fr.set p.1 p.2) fr

end Frame

/-- The bytes of a scalar type. -/
def ClType.scalarBytes : ClType → Option Nat
  | .scalar s => some (s.bits / 8)
  | _ => none

def MemFlags.order (flags : MemFlags) (M : Machine) : Endianness := flags.endianness.getD M.endianness

namespace Function

/-- The width of the lanes of a value. -/
def width (f : Function) (v : Value) : Nat := (f.valueType v).laneType.bits

/-- The lanes an instruction gives its result `d`. -/
def eval (f : Function) (M : Machine) (fr : Frame) (d : Value) : InstData → Option Lanes
  | .binary op x y => do
    let lane ← op.lane (f.width d)
    let xs ← fr.env x
    let ys ← fr.env y
    return List.zipWith (onLanes lane) xs ys
  | .unary .splat x => do
    let a ← fr.scalar x
    return List.replicate (f.valueType d).laneCount a
  | .unary .vallTrue x => do
    let xs ← fr.env x
    return [(xs.all (· ≠ 0)).toNat]
  | .unary .vanyTrue x => do
    let xs ← fr.env x
    return [(xs.any (· ≠ 0)).toNat]
  | .unary .ireduce x | .unary .uextend x => do
    let a ← fr.scalar x
    return [((BitVec.ofNat (f.width x) a).setWidth (f.width d)).toNat]
  | .unary .sextend x => do
    let a ← fr.scalar x
    return [((BitVec.ofNat (f.width x) a).signExtend (f.width d)).toNat]
  | .ternary .select c x y => do
    let a ← fr.scalar c
    if a ≠ 0 then fr.env x else fr.env y
  | .ternary .bitselect c x y => do
    let cs ← fr.env c
    let xs ← fr.env x
    let ys ← fr.env y
    return List.zipWith3 (onMaskedLanes (bitselect (w := f.width d))) cs xs ys
  -- Only casts between scalars are lowered, so casts that regroup lanes are left out.
  | .bitcast _ x => if (f.valueType x).laneCount = (f.valueType d).laneCount then fr.env x else none
  | .load flags x offset => do
    let bytes ← (f.valueType d).scalarBytes
    let base ← fr.scalar x
    return [fr.memory.read M.wrap (flags.order M) bytes (base + offset)]
  | .stackLoad slot offset => do
    let bytes ← (f.valueType d).scalarBytes
    return [(fr.slots slot).read id M.endianness bytes offset]
  | _ => none

/-- An instruction that does not end its block. -/
def exec (f : Function) (M : Machine) (fr : Frame) (i : Inst) : Option Frame :=
  match i.data with
  | .store flags v x offset => do
    let bytes ← (f.valueType v).scalarBytes
    let a ← fr.scalar v
    let base ← fr.scalar x
    return { fr with memory := fr.memory.write M.wrap (flags.order M) bytes (base + offset) a }
  | .stackStore v slot offset => do
    let bytes ← (f.valueType v).scalarBytes
    let a ← fr.scalar v
    return { fr with slots :=
      Function.update fr.slots slot ((fr.slots slot).write id M.endianness bytes offset a) }
  | data =>
    match i.results with
    | [d] => (f.eval M fr d data).map (fr.set d)
    | _ => none

def enter (f : Function) (fr : Frame) (call : BlockCall) : Option Config := do
  let blk ← f.layout.find? (·.block == call.block)
  let values ← call.args.mapM fr.env
  return .running blk.insts (fr.bind blk.params values)

def step (f : Function) (M : Machine) : Config → Option Config
  | .running (i :: rest) fr =>
    match i.data with
    | .jump call => f.enter fr call
    | .brif c thenCall elseCall => do
      let a ← fr.scalar c
      f.enter fr (if a ≠ 0 then thenCall else elseCall)
    | .brTable x default table => do
      let a ← fr.scalar x
      f.enter fr (table.getD (a % 2 ^ 32) default)
    | .multiAryReturn args => do
      let values ← args.mapM fr.env
      return .returned fr.memory values
    | _ => (f.exec M fr i).map (.running rest)
  | .running [] _ | .returned _ _ => none

/-- The arguments are bound to the parameters of the entry block. -/
def start (f : Function) (M : Machine) (args : List Lanes) (memory : Region) : Option Config := do
  let blk ← f.layout.head?
  return .running blk.insts ((Frame.initial M memory).bind blk.params args)

/-- The run passes through a configuration. -/
def Visits (f : Function) (M : Machine) (args : List Lanes) (memory : Region) (c : Config) : Prop :=
  ∃ c₀, f.start M args memory = some c₀ ∧ Reaches (f.step M) c₀ c

def Returns (f : Function) (M : Machine) (args : List Lanes) (memory : Region)
    (result : Region × List Lanes) : Prop :=
  f.Visits M args memory (.returned result.1 result.2)

end Function

/-! ## The lowered IR -/

/-- A splat does not record how many lanes it fills, so the count of a vector may be open: it has as
many lanes as its use asks for. The pointer of an allocation names its region. -/
inductive LoweredVal
  | data (count : Option Nat) (lane : Nat → Nat)
  | pointer (object : LoweredValueId)

namespace LoweredVal

def ofLanes (xs : Lanes) : LoweredVal := .data (some xs.length) fun k => xs.getD k 0

def ofScalar (a : Nat) : LoweredVal := .data (some 1) fun _ => a

def lanes (n : Nat) : LoweredVal → Option Lanes
  | .data _ lane => some ((List.range n).map lane)
  | .pointer _ => none

def zipWith (op : Nat → Nat → Nat) : LoweredVal → LoweredVal → Option LoweredVal
  | .data n x, .data n' y => some (.data (n <|> n') fun k => op (x k) (y k))
  | _, _ => none

def zipWith3 (op : Nat → Nat → Nat → Nat) : LoweredVal → LoweredVal → LoweredVal → Option LoweredVal
  | .data n c, .data n' x, .data n'' y => some (.data (n <|> n' <|> n'') fun k => op (c k) (x k) (y k))
  | _, _, _ => none

/-- The lanes a reduction looks at; those of an open count are all the same. -/
def reduced : LoweredVal → Option Lanes
  | .data count lane => some ((List.range (count.getD 1)).map lane)
  | .pointer _ => none

end LoweredVal

structure LoweredFrame where
  env : LoweredValueId → Option LoweredVal
  memory : Region
  objects : LoweredValueId → Region

inductive LoweredConfig
  | running (ops : List LoweredOp) (frame : LoweredFrame)
  | returned (memory : Region) (values : List Lanes)

namespace LoweredFrame

/-- No region is read before its allocation. -/
def initial (memory : Region) : LoweredFrame := ⟨fun _ => none, memory, fun _ _ => 0⟩

def scalar (fr : LoweredFrame) (d : LoweredValueId) : Option Nat :=
  match fr.env d with
  | some (.data _ lane) => some (lane 0)
  | _ => none

def set (fr : LoweredFrame) (d : LoweredValueId) (v : LoweredVal) : LoweredFrame :=
  { fr with env := Function.update fr.env d (some v) }

def bind (fr : LoweredFrame) (params : List LoweredValueId) (values : List LoweredVal) :
    LoweredFrame :=
  (params.zip values).foldl (fun fr p => fr.set p.1 p.2) fr

end LoweredFrame

def LoweredType.laneCount : LoweredType → Nat
  | .v128 _ lanes => lanes
  | _ => 1

def LoweredType.scalarBytes (ty : LoweredType) : Option Nat := ty.scalarBits.map (· / 8)

/-- The conversions between scalars. -/
def ConvKind.apply (w w' : Nat) (a : Nat) : ConvKind → Nat
  | .bitcast => a
  | .truncI | .extendU => ((BitVec.ofNat w a).setWidth w').toNat
  | .extendS => ((BitVec.ofNat w a).signExtend w').toNat

/-- The value an operation gives its result. -/
def LoweredOp.eval (M : Machine) (fr : LoweredFrame) : LoweredOp → Option LoweredVal
  | .arith kind ty lhs rhs _ => do
    let w ← ty.scalarBits
    let lane ← kind.lane w
    (← fr.env lhs).zipWith (onLanes lane) (← fr.env rhs)
  | .vMin laneTy signed lhs rhs _ => do
    let w ← laneTy.scalarBits
    (← fr.env lhs).zipWith (onLanes (laneMin (w := w) signed)) (← fr.env rhs)
  | .vMax laneTy signed lhs rhs _ => do
    let w ← laneTy.scalarBits
    (← fr.env lhs).zipWith (onLanes (laneMax (w := w) signed)) (← fr.env rhs)
  | .vSplat _ src _ => do
    let a ← fr.scalar src
    return .data none fun _ => a
  | .vSelect laneTy cond thenV elseV _ => do
    let w ← laneTy.scalarBits
    (← fr.env cond).zipWith3 (onMaskedLanes (laneSelect (w := w))) (← fr.env thenV) (← fr.env elseV)
  | .vAllTrue src _ => do
    let xs ← (← fr.env src).reduced
    return .ofScalar (xs.all (· ≠ 0)).toNat
  | .vAnyTrue src _ => do
    let xs ← (← fr.env src).reduced
    return .ofScalar (xs.any (· ≠ 0)).toNat
  | .select _ cond thenV elseV _ => do
    let a ← fr.scalar cond
    if a ≠ 0 then fr.env thenV else fr.env elseV
  | .conv kind fromTy toTy src _ => do
    let w ← fromTy.scalarBits
    let w' ← toTy.scalarBits
    let a ← fr.scalar src
    return .ofScalar (kind.apply w w' a)
  | .load ty base offset _ => do
    let bytes ← ty.scalarBytes
    match ← fr.env base with
    | .data _ lane => return .ofScalar (fr.memory.read M.wrap M.endianness bytes (lane 0 + offset))
    | .pointer p => return .ofScalar ((fr.objects p).read id M.endianness bytes offset)
  | _ => none

/-- An operation that does not end its block. -/
def LoweredOp.exec (M : Machine) (fr : LoweredFrame) (op : LoweredOp) : Option LoweredFrame :=
  match op with
  | .store ty value base offset => do
    let bytes ← ty.scalarBytes
    let a ← fr.scalar value
    match ← fr.env base with
    | .data _ lane =>
      return { fr with memory := fr.memory.write M.wrap M.endianness bytes (lane 0 + offset) a }
    | .pointer p =>
      return { fr with objects :=
        Function.update fr.objects p ((fr.objects p).write id M.endianness bytes offset a) }
  | .stackAlloc _ _ p =>
    some { fr.set p (.pointer p) with objects := Function.update fr.objects p M.stackBytes }
  | op =>
    match op.result with
    | some d => (op.eval M fr).map (fr.set d)
    | none => none

namespace LoweredFunction

def enter (L : LoweredFunction) (fr : LoweredFrame) (target : LoweredBlockId)
    (args : List LoweredValueId) : Option LoweredConfig := do
  let blk ← L.blocks.find? (·.id == target)
  let values ← args.mapM fr.env
  return .running blk.ops (fr.bind blk.paramIds values)

def step (L : LoweredFunction) (M : Machine) : LoweredConfig → Option LoweredConfig
  | .running (op :: rest) fr =>
    match op with
    | .br target args => L.enter fr target args
    | .condBr cond thenTarget thenArgs elseTarget elseArgs => do
      let a ← fr.scalar cond
      if a ≠ 0 then L.enter fr thenTarget thenArgs else L.enter fr elseTarget elseArgs
    | .switch value defaultTarget cases => do
      let a ← fr.scalar value
      -- Case values are `u32`s, and the first case that matches is taken.
      let target := (cases.find? (·.1 == a % 2 ^ 32)).elim defaultTarget Prod.snd
      L.enter fr target []
    | .return values => do
      let values ← values.mapM fr.env
      -- The signature says how many lanes a value with an open count has.
      let lanes ← (L.signature.returns.zip values).mapM fun p => p.2.lanes p.1.laneCount
      return .returned fr.memory lanes
    | op => (op.exec M fr).map (.running rest)
  | .running [] _ | .returned _ _ => none

def start (L : LoweredFunction) (args : List Lanes) (memory : Region) : Option LoweredConfig := do
  let blk ← L.blocks.find? (·.id == L.entry)
  return .running blk.ops ((LoweredFrame.initial memory).bind blk.paramIds (args.map .ofLanes))

def Returns (L : LoweredFunction) (M : Machine) (args : List Lanes) (memory : Region)
    (result : Region × List Lanes) : Prop :=
  ∃ c₀, L.start args memory = some c₀ ∧ Reaches (L.step M) c₀ (.returned result.1 result.2)

end LoweredFunction

end TensorWasm.Clif
