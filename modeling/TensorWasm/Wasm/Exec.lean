import TensorWasm.Wasm.Memory
import TensorWasm.Wasm.Syntax

/-!
# Running the operators a trampoline uses

An executor for the straight-line fragment the rewriter emits: constants, locals, loads and stores of
number types, calls of imports, and `if` without a branch out of it. Operators are the flat list of a
function body; an `if` whose condition is zero skips to its `else` or `end`, and the number of blocks
still to skip is part of the state, so running is structural in the list. Everything outside the
fragment is `Trap.invalid`, which no run of a trampoline reaches.
-/

namespace TensorWasm.Wasm

open Lib

/-- Bytes of a number type in memory. -/
def NumType.width : NumType → Nat
  | .i32 | .f32 => 4
  | .i64 | .f64 => 8

/-- A number, as its bits. -/
inductive Value where
  | i32 (v : UInt32)
  | i64 (v : UInt64)
  | f32 (bits : UInt32)
  | f64 (bits : UInt64)

def Value.type : Value → NumType
  | .i32 _ => .i32
  | .i64 _ => .i64
  | .f32 _ => .f32
  | .f64 _ => .f64

def Value.bits : Value → Nat
  | .i32 v | .f32 v => v.toNat
  | .i64 v | .f64 v => v.toNat

/-- A value as memory holds it. -/
def Value.bytes (v : Value) : Bytes := leBytes v.type.width v.bits

/-- The value a byte string holds. -/
def NumType.decode : NumType → Bytes → Value
  | .i32, bs => .i32 (UInt32.ofNat (ofLeBytes bs))
  | .i64, bs => .i64 (UInt64.ofNat (ofLeBytes bs))
  | .f32, bs => .f32 (UInt32.ofNat (ofLeBytes bs))
  | .f64, bs => .f64 (UInt64.ofNat (ofLeBytes bs))

@[simp] theorem Value.length_bytes (v : Value) : v.bytes.length = v.type.width := by
  simp [Value.bytes]

/-- A function under way: operand stack with the top first, locals, memory 0, and whatever state
the imports act on. -/
structure Machine (H : Type) where
  stack : List Value
  locals : List Value
  memory : Memory
  host : H

inductive Trap where
  | unreachable
  | outOfBounds
  | invalid

/-- What an import does to the operand stack, the memory and its own state. -/
abbrev ImportCall (H : Type) := UInt32 → List Value → Memory → H → Option (List Value × Memory × H)

section Exec

variable {H : Type} (imports : ImportCall H)

/-- The byte range of an access, if it is inside memory 0. -/
def accessRange (memory : Memory) (base : UInt32) (arg : MemArg) (width : Nat) : Except Trap Nat :=
  let addr := base.toNat + arg.offset.toNat
  if arg.memory ≠ 0 then .error .invalid
  else if addr + width ≤ memory.len then .ok addr
  else .error .outOfBounds

/-- One operator; the number says how many enclosing blocks are to be skipped next. -/
def stepOp (op : Operator) (m : Machine H) : Except Trap (Nat × Machine H) :=
  match op with
  | .i32Const v => .ok (0, { m with stack := .i32 v :: m.stack })
  | .i64Const v => .ok (0, { m with stack := .i64 v :: m.stack })
  | .localGet i =>
    match m.locals[i.toNat]? with
    | some v => .ok (0, { m with stack := v :: m.stack })
    | none => .error .invalid
  | .localSet i =>
    match m.stack with
    | v :: st => .ok (0, { m with stack := st, locals := m.locals.set i.toNat v })
    | _ => .error .invalid
  | .localTee i =>
    match m.stack with
    | v :: st => .ok (0, { m with stack := v :: st, locals := m.locals.set i.toNat v })
    | _ => .error .invalid
  | .i32Ne =>
    match m.stack with
    | .i32 b :: .i32 a :: st => .ok (0, { m with stack := .i32 (if a ≠ b then 1 else 0) :: st })
    | _ => .error .invalid
  | .store t arg =>
    match m.stack with
    | v :: .i32 base :: st =>
      if v.type ≠ t then .error .invalid
      else do
        let addr ← accessRange m.memory base arg t.width
        .ok (0, { m with stack := st, memory := m.memory.write addr v.bytes })
    | _ => .error .invalid
  | .load t arg =>
    match m.stack with
    | .i32 base :: st => do
      let addr ← accessRange m.memory base arg t.width
      .ok (0, { m with stack := t.decode (m.memory.read addr t.width) :: st })
    | _ => .error .invalid
  | .call f =>
    match imports f m.stack m.memory m.host with
    | some (st, memory, host) => .ok (0, { m with stack := st, memory := memory, host := host })
    | none => .error .invalid
  | .if_ .empty =>
    match m.stack with
    | .i32 c :: st => .ok (if c ≠ 0 then 0 else 1, { m with stack := st })
    | _ => .error .invalid
  | .else_ => .ok (1, m)
  | .end_ => .ok (0, m)
  | .unreachable => .error .unreachable
  | _ => .error .invalid

/-- The blocks left to skip after passing over an operator. -/
def skipOp : Operator → Nat → Nat
  | .block _, d | .loop _, d | .if_ _, d => d + 1
  | .end_, d => d - 1
  | .else_, 1 => 0
  | _, d => d

/-- Run a list of operators, skipping the first `d` blocks. -/
def execOps : Nat → List Operator → Machine H → Except Trap (Nat × Machine H)
  | d, [], m => .ok (d, m)
  | 0, op :: ops, m => do
    let (d, m) ← stepOp imports op m
    execOps d ops m
  | d + 1, op :: ops, m => execOps (skipOp op (d + 1)) ops m

theorem execOps_append (d : Nat) (ops ops' : List Operator) (m : Machine H) :
    execOps imports d (ops ++ ops') m = execOps imports d ops m >>= fun r => execOps imports r.1 ops' r.2 := by
  induction ops generalizing d m with
  | nil => cases d <;> cases ops' <;> rfl
  | cons op ops ih =>
    cases d with
    | zero =>
      show (stepOp imports op m >>= fun r => execOps imports r.1 (ops ++ ops') r.2) = _
      cases hstep : stepOp imports op m with
      | error t => simp only [execOps, hstep]; rfl
      | ok r =>
        simp only [execOps, hstep]
        exact ih r.1 r.2
    | succ d => exact ih _ m

/-- Running from an executing state to another. -/
def Steps (ops : List Operator) (m m' : Machine H) : Prop := execOps imports 0 ops m = .ok (0, m')

variable {imports}

theorem Steps.nil (m : Machine H) : Steps imports [] m m := rfl

theorem Steps.append {ops ops' : List Operator} {m m₁ m₂ : Machine H} (h : Steps imports ops m m₁)
    (h' : Steps imports ops' m₁ m₂) : Steps imports (ops ++ ops') m m₂ := by
  unfold Steps at h h' ⊢
  rw [execOps_append, h]
  exact h'

theorem Steps.cons {op : Operator} {ops : List Operator} {m m₁ m₂ : Machine H} (h : stepOp imports op m = .ok (0, m₁))
    (h' : Steps imports ops m₁ m₂) : Steps imports (op :: ops) m m₂ := by
  unfold Steps at h' ⊢
  rw [execOps, h]
  exact h'

end Exec

/-- The initial value of a declared local. -/
def ValType.zero : ValType → Option Value
  | .num t => some (t.decode [])
  | _ => none

/-- The values declared locals start with. -/
def localValues : List (UInt32 × ValType) → Option (List Value)
  | [] => some []
  | (n, t) :: rest => do
    let v ← t.zero
    let vs ← localValues rest
    some (List.replicate n.toNat v ++ vs)

/-- Call a function: its results, in order, and the state it leaves. -/
def FuncBody.invoke {H : Type} (imports : ImportCall H) (b : FuncBody) (args : List Value)
    (memory : Memory) (host : H) : Except Trap (List Value × Memory × H) :=
  match localValues b.locals with
  | none => .error .invalid
  | some locals => do
    let (_, m) ← execOps imports 0 b.ops ⟨[], args ++ locals, memory, host⟩
    .ok (m.stack.reverse, m.memory, m.host)

end TensorWasm.Wasm
