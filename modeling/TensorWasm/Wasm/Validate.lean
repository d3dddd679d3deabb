import TensorWasm.Wasm.Exec

/-!
# Validating the operators a trampoline uses

The validation algorithm of WebAssembly for the fragment of `Exec.lean`: one frame for each open block, with
the types of the operands its operators have left, and a mark for code that is never reached, which may
take operands that are not there. An operator outside the fragment does not validate.
-/

namespace TensorWasm.Wasm

/-- What a body can refer to: functions, and memory 0 with 32-bit addresses. -/
structure FuncContext where
  func : UInt32 → Option FuncType
  hasMemory : Bool

/-- An open block: its operands, the last one first, and the types it ends with. -/
structure Frame where
  operands : List ValType
  results : List ValType
  dead : Bool
  deriving DecidableEq

namespace Frame

def pop (t : ValType) (fr : Frame) : Option Frame :=
  match fr.operands with
  | u :: rest => if u = t then some { fr with operands := rest } else none
  | [] => if fr.dead then some fr else none

/-- Pop operands of these types, the first one on top. -/
def popAll : List ValType → Frame → Option Frame
  | [], fr => some fr
  | t :: ts, fr => (fr.pop t).bind (popAll ts)

def push (t : ValType) (fr : Frame) : Frame := { fr with operands := t :: fr.operands }

/-- Push operands of these types, the last one on top. -/
def pushAll (ts : List ValType) (fr : Frame) : Frame := { fr with operands := ts.reverse ++ fr.operands }

end Frame

/-- An access to memory 0 of at most its natural alignment. -/
def MemArg.valid (ctx : FuncContext) (arg : MemArg) (t : NumType) : Bool :=
  ctx.hasMemory && arg.memory == 0 && arg.offset.toNat < 2 ^ 32 && 2 ^ arg.align.toNat ≤ t.width

/-- One operator in a function with these locals. -/
def validateOp (ctx : FuncContext) (locals : List ValType) (op : Operator) : List Frame → Option (List Frame)
  | [] => none
  | fr :: frs =>
    match op with
    | .i32Const _ => some (fr.push (.num .i32) :: frs)
    | .i64Const _ => some (fr.push (.num .i64) :: frs)
    | .localGet i => do
      let t ← locals[i.toNat]?
      some (fr.push t :: frs)
    | .localSet i => do
      let t ← locals[i.toNat]?
      let fr ← fr.pop t
      some (fr :: frs)
    | .localTee i => do
      let t ← locals[i.toNat]?
      let fr ← fr.pop t
      some (fr.push t :: frs)
    | .i32Ne => do
      let fr ← fr.popAll [.num .i32, .num .i32]
      some (fr.push (.num .i32) :: frs)
    | .store t arg =>
      if arg.valid ctx t then do
        let fr ← fr.popAll [.num t, .num .i32]
        some (fr :: frs)
      else none
    | .load t arg =>
      if arg.valid ctx t then do
        let fr ← fr.pop (.num .i32)
        some (fr.push (.num t) :: frs)
      else none
    | .call f => do
      let ty ← ctx.func f
      let fr ← fr.popAll ty.params.reverse
      some (fr.pushAll ty.results :: frs)
    | .if_ .empty => do
      let fr ← fr.pop (.num .i32)
      some (⟨[], [], false⟩ :: fr :: frs)
    | .unreachable => some ({ fr with operands := [], dead := true } :: frs)
    | .end_ => do
      let closed ← fr.popAll fr.results.reverse
      if closed.operands ≠ [] then none
      else
        match frs with
        | [] => some []
        | outer :: frs => some (outer.pushAll fr.results :: frs)
    | _ => none

def validateOps (ctx : FuncContext) (locals : List ValType) : List Operator → List Frame → Option (List Frame)
  | [], frs => some frs
  | op :: ops, frs => (validateOp ctx locals op frs).bind (validateOps ctx locals ops)

section Checks

variable {ctx : FuncContext} {locals : List ValType} {fr : Frame} {frs : List Frame}

theorem validateOps_cons {op : Operator} {ops : List Operator} {frs frs' : List Frame} {r : Option (List Frame)}
    (h : validateOp ctx locals op frs = some frs') (h' : validateOps ctx locals ops frs' = r) :
    validateOps ctx locals (op :: ops) frs = r := by
  rw [validateOps, h, Option.bind_some, h']

theorem Frame.pop_push (t : ValType) : (fr.push t).pop t = some fr := by
  simp only [Frame.push, Frame.pop, if_true]

theorem validateOp_localGet {i : UInt32} {t : ValType} (h : locals[i.toNat]? = some t) :
    validateOp ctx locals (.localGet i) (fr :: frs) = some (fr.push t :: frs) := by
  unfold validateOp
  dsimp only
  rw [h]
  rfl

theorem validateOp_localSet {i : UInt32} {t : ValType} (h : locals[i.toNat]? = some t) :
    validateOp ctx locals (.localSet i) (fr.push t :: frs) = some (fr :: frs) := by
  unfold validateOp
  dsimp only
  rw [h]
  exact congrArg (Option.bind · _) (Frame.pop_push t)

theorem validateOp_localTee {i : UInt32} {t : ValType} (h : locals[i.toNat]? = some t) :
    validateOp ctx locals (.localTee i) (fr.push t :: frs) = some (fr.push t :: frs) := by
  unfold validateOp
  dsimp only
  rw [h]
  exact congrArg (Option.bind · _) (Frame.pop_push t)

theorem validateOp_store {t : NumType} {arg : MemArg} (h : arg.valid ctx t = true) :
    validateOp ctx locals (.store t arg) ((fr.push (.num .i32)).push (.num t) :: frs) = some (fr :: frs) := by
  unfold validateOp
  dsimp only
  rw [if_pos h, Frame.popAll, Frame.pop_push]
  rfl

theorem validateOp_load {t : NumType} {arg : MemArg} (h : arg.valid ctx t = true) :
    validateOp ctx locals (.load t arg) (fr.push (.num .i32) :: frs) = some (fr.push (.num t) :: frs) := by
  unfold validateOp
  dsimp only
  rw [if_pos h]
  rfl

theorem validateOp_call {f : UInt32} {ty : FuncType} {fr' : Frame} (h : ctx.func f = some ty)
    (hargs : fr'.popAll ty.params.reverse = some fr) :
    validateOp ctx locals (.call f) (fr' :: frs) = some (fr.pushAll ty.results :: frs) := by
  unfold validateOp
  dsimp only
  rw [h]
  exact congrArg (Option.bind · _) hargs

end Checks

theorem validateOps_append (ctx : FuncContext) (locals : List ValType) (ops ops' : List Operator) (frs : List Frame) :
    validateOps ctx locals (ops ++ ops') frs =
      (validateOps ctx locals ops frs).bind (validateOps ctx locals ops') := by
  induction ops generalizing frs with
  | nil => rfl
  | cons op ops ih =>
    simp only [List.cons_append, validateOps]
    cases validateOp ctx locals op frs with
    | none => rfl
    | some frs' => exact ih frs'

/-- The body has the type: its last `end` closes the function. -/
def FuncBody.validates (ctx : FuncContext) (ty : FuncType) (b : FuncBody) : Bool :=
  let locals := ty.params ++ b.locals.flatMap fun (n, t) => List.replicate n.toNat t
  validateOps ctx locals b.ops [⟨[], ty.results, false⟩] == some []

end TensorWasm.Wasm
