import Mathlib.Data.Rat.Defs
import TensorWasm.Api.Requests
import TensorWasm.Exec.Executor

/-!
# Numbers of a call as JSON

How an integer literal becomes an argument, by `WasmArg::from_json`, and a result a number, by `val_to_json` of
`tensor-wasm-exec/src/executor.rs`. `serde_json` reads the literal first and is a parameter, with the laws that are
used of it. Floats are taken apart from their bits, so that values can be compared.
-/

namespace TensorWasm.Api

open Executor (ExecError)

/-- An integer literal of JSON, which has no leading zeros and no plus sign: `-0` is not `0`. -/
structure IntLiteral where
  negative : Bool
  magnitude : ℕ

namespace IntLiteral

def value (l : IntLiteral) : ℤ := if l.negative then -l.magnitude else l.magnitude

/-- The literal is one of an integer below `bound` that is at least -2⁶³. -/
def Within (l : IntLiteral) (bound : ℤ) : Prop :=
  (l.negative = true → l.magnitude ≠ 0) ∧ -2 ^ 63 ≤ l.value ∧ l.value < bound

instance (l : IntLiteral) (bound : ℤ) : Decidable (l.Within bound) := inferInstanceAs (Decidable (_ ∧ _))

end IntLiteral

/-- What is used of `serde_json`: how it reads an integer literal, if it does not refuse it. -/
structure SerdeJson where
  read : IntLiteral → Option Number
  /-- A value of `i64` or `u64` is kept. -/
  exact : ∀ l, l.Within (2 ^ 64) → read l = some (.int l.value)
  /-- Everything else, and `-0`, which no integer type has, is at best a float. -/
  float : ∀ l, ¬ l.Within (2 ^ 64) → ∀ number, read l = some number → ∃ bits, number = .float bits

/-- What the bits of a float stand for. -/
inductive FloatValue
  | finite (value : ℚ)
  | infinite (negative : Bool)
  | nan
  deriving DecidableEq

/-- A float with `e` bits of exponent and `f` of fraction. -/
def floatValue (e f bits : ℕ) : FloatValue :=
  let exponent := bits / 2 ^ f % 2 ^ e
  let fraction := bits % 2 ^ f
  let negative := decide (bits / 2 ^ (e + f) % 2 = 1)
  let significand := if exponent = 0 then 2 * fraction else 2 ^ f + fraction
  let size : ℚ := significand * 2 ^ exponent / 2 ^ (2 ^ (e - 1) - 1 + f)
  if exponent = 2 ^ e - 1 then if fraction = 0 then .infinite negative else .nan
  else .finite (if negative then -size else size)

/-- A `wasmtime::Val`, without the contents that have no JSON. -/
inductive Val
  | i32 (n : Int32)
  | i64 (n : Int64)
  | f32 (bits : UInt32)
  | f64 (bits : UInt64)
  | v128
  | funcRef
  | externRef
  | anyRef
  | other

/-- A result in JSON; a float is known by its value. -/
inductive ResultJson
  | null
  | int (n : ℤ)
  | float (value : ℚ)

/-- `json!` of a float, which keeps a finite one. -/
def ResultJson.ofFloat : FloatValue → ResultJson
  | .finite value => .float value
  | .infinite _ | .nan => .null

def valToJson : Val → Except ExecError ResultJson
  | .i32 n => .ok (.int n.toInt)
  | .i64 n => .ok (.int n.toInt)
  | .f32 bits => .ok (.ofFloat (floatValue 8 23 bits.toNat))
  | .f64 bits => .ok (.ofFloat (floatValue 11 52 bits.toNat))
  | .v128 => .error (.unsupportedReturnType "v128")
  | .funcRef => .error (.unsupportedReturnType "funcref")
  | .externRef => .error (.unsupportedReturnType "externref")
  | .anyRef => .error (.unsupportedReturnType "anyref")
  | .other => .error (.unsupportedReturnType "unknown")

end TensorWasm.Api
