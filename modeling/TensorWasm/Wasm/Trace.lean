import TensorWasm.Lib.Outcome
import TensorWasm.Wasm.Exec

/-!
# What a run does, up to a trap

The calls and the memory accesses of a run in order. A run that traps has done what stands in its trace, the
access that trapped included.
-/

namespace TensorWasm.Wasm

open Lib

/-- A call comes with the operands, the last argument first, and an access with its address and width. -/
inductive Event where
  | call (f : UInt32) (operands : List Value)
  | access (addr width : Nat)

section Trace

variable {H : Type} (imports : ImportCall H)

def opEvents (op : Operator) (m : Machine H) : List Event :=
  match op, m.stack with
  | .call f, operands => [.call f operands]
  | .store t arg, _ :: .i32 base :: _ => [.access (base.toNat + arg.offset.toNat) t.width]
  | .load t arg, .i32 base :: _ => [.access (base.toNat + arg.offset.toNat) t.width]
  | _, _ => []

/-- The events of running the operators, skipping the first `d` blocks. -/
def trace : Nat → List Operator → Machine H → List Event
  | _, [], _ => []
  | 0, op :: ops, m =>
    opEvents op m ++
      match stepOp imports op m with
      | .ok (d, m') => trace d ops m'
      | .error _ => []
  | d + 1, op :: ops, m => trace (skipOp op (d + 1)) ops m

theorem trace_append (d : Nat) (ops ops' : List Operator) (m : Machine H) :
    trace imports d (ops ++ ops') m =
      trace imports d ops m ++
        match execOps imports d ops m with
        | .ok (d', m') => trace imports d' ops' m'
        | .error _ => [] := by
  induction ops generalizing d m with
  | nil => cases d <;> rfl
  | cons op ops ih =>
    cases d with
    | zero =>
      simp only [List.cons_append, trace, execOps]
      cases hstep : stepOp imports op m with
      | error t => simp only [error_bind, List.append_nil]
      | ok r =>
        rw [ok_bind, List.append_assoc]
        exact congrArg _ (ih r.1 r.2)
    | succ d => exact ih _ m

theorem trace_single (op : Operator) (m : Machine H) : trace imports 0 [op] m = opEvents op m := by
  rw [trace]
  cases stepOp imports op m with
  | error t => exact List.append_nil _
  | ok r => cases hd : r.1 <;> simp [trace]

theorem execOps_single (op : Operator) (m : Machine H) : execOps imports 0 [op] m = stepOp imports op m := by
  rw [execOps]
  cases stepOp imports op m with
  | error t => rfl
  | ok r => cases hd : r.1 <;> simp [execOps, ok_bind]

/-- The operators go through, with these events. -/
structure Passes (ops : List Operator) (m : Machine H) (events : List Event) (m' : Machine H) : Prop where
  steps : Steps imports ops m m'
  trace : Wasm.trace imports 0 ops m = events

variable {imports} {ops ops' : List Operator} {m m₁ m₂ : Machine H} {events events' : List Event}

namespace Passes

theorem nil (m : Machine H) : Passes imports [] m [] m := ⟨.nil m, rfl⟩

theorem cons {op : Operator} (h : stepOp imports op m = .ok (0, m₁)) (h' : Passes imports ops m₁ events m₂) :
    Passes imports (op :: ops) m (opEvents op m ++ events) m₂ :=
  ⟨.cons h h'.steps, by rw [Wasm.trace, h, ← h'.trace]⟩

theorem trace_append (h : Passes imports ops m events m₁) (ops' : List Operator) :
    Wasm.trace imports 0 (ops ++ ops') m = events ++ Wasm.trace imports 0 ops' m₁ := by
  rw [Wasm.trace_append, h.steps, h.trace]

theorem append (h : Passes imports ops m events m₁) (h' : Passes imports ops' m₁ events' m₂) :
    Passes imports (ops ++ ops') m (events ++ events') m₂ :=
  ⟨h.steps.append h'.steps, by rw [h.trace_append, h'.trace]⟩

end Passes

end Trace

/-- The events of a call of the function. -/
def FuncBody.trace {H : Type} (imports : ImportCall H) (b : FuncBody) (args : List Value) (memory : Memory)
    (host : H) : List Event :=
  match localValues b.locals with
  | none => []
  | some locals => Wasm.trace imports 0 b.ops ⟨[], args ++ locals, memory, host⟩

end TensorWasm.Wasm
