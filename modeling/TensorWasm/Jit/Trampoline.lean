import TensorWasm.Lib.Outcome
import TensorWasm.Wasm.Syntax

/-!
# The dispatch trampoline

The layout packer and `build_trampoline` of `tensor-wasm-jit/src/rewrite.rs`: the body that replaces
an offloaded function. It allocates a scratch region, stores the arguments, calls the host's
dispatch, traps on a nonzero code, loads the results and frees the region.

Offsets are `u32` in the source, with checked additions; they are `Nat` here and every check is
kept. `x & !(align - 1)` with `align` 4 or 8 is rounding down to a multiple of `align`.
-/

namespace TensorWasm.Jit

open Lib Wasm

/-- Why a trampoline cannot be built; each constructor carries what the source's message prints. -/
inductive TrampolineError where
  | unsupportedType (t : ValType)
  | valTypeSize (t : ValType)
  | alignedAdvance (off mask : Nat)
  | packCursor (aligned size : Nat)
  | packTotal (off : Nat)
  | scratchOverflow
  | scratchTooLarge (scratchSize : Nat)

inductive RewriteError where
  | parse (body : Nat)
  | reencode (message : String)
  | trampoline (e : TrampolineError)

/-- `u32::checked_add` with the given error. -/
def checkedAddOr (e : TrampolineError) (a b : Nat) : Except RewriteError Nat :=
  if a + b < 2 ^ 32 then .ok (a + b) else .error (.trampoline e)

/-- The types the byte-packed ABI can carry. -/
def isSupportedPrimitive : ValType → Bool
  | .num _ => true
  | _ => false

def NumType.size : NumType → Nat
  | .i32 | .f32 => 4
  | .i64 | .f64 => 8

def valTypeSize : ValType → Except RewriteError Nat
  | .num t => .ok (NumType.size t)
  | t => .error (.trampoline (.valTypeSize t))

/-- The next naturally aligned offset for a value. -/
def alignedAdvance (off : Nat) (t : ValType) : Except RewriteError Nat := do
  let align ← valTypeSize t
  let mask := align - 1
  let summed ← checkedAddOr (.alignedAdvance off mask) off mask
  .ok (summed / align * align)

/-- A packed region: an offset per value and the total length. -/
structure PackedLayout where
  offsets : List Nat
  totalBytes : Nat

/-- The loop of `pack_layout`: the offsets of the remaining values and the final cursor. -/
def packOffsets : List ValType → Nat → Except RewriteError (List Nat × Nat)
  | [], off => .ok ([], off)
  | t :: ts, off => do
    let aligned ← alignedAdvance off t
    let size ← valTypeSize t
    let off ← checkedAddOr (.packCursor aligned size) aligned size
    let (offs, off) ← packOffsets ts off
    .ok (aligned :: offs, off)

/-- Lay values out in order; the total is rounded up so that the next region is 8-aligned. -/
def packLayout (types : List ValType) : Except RewriteError PackedLayout := do
  let (offsets, off) ← packOffsets types 0
  let padded ← checkedAddOr (.packTotal off) off 7
  .ok { offsets := offsets, totalBytes := padded / 8 * 8 }

/-- Function indices of the three host imports. -/
structure DispatchImports where
  dispatch : UInt32
  alloc : UInt32
  free : UInt32

/-- log2 of the natural alignment. -/
def log2Align : ValType → UInt32
  | .num .i32 | .num .f32 => 2
  | .num .i64 | .num .f64 => 3
  | _ => 0

/-- The store of one argument: `scratch_ptr; param i; store offset`. A type that is not a number
type was refused before. -/
def storeArg (scratchLocal : UInt32) (i : Nat) (t : ValType) (off : Nat) : List Operator :=
  match t with
  | .num n => [.localGet scratchLocal, .localGet (UInt32.ofNat i),
      .store n { offset := UInt64.ofNat off, align := log2Align t, memory := 0 }]
  | _ => []

/-- The load of one result: `scratch_ptr; load offset`. -/
def loadResult (scratchLocal : UInt32) (t : ValType) (off : Nat) : List Operator :=
  match t with
  | .num n => [.localGet scratchLocal, .load n { offset := UInt64.ofNat off, align := log2Align t, memory := 0 }]
  | _ => []

def storeArgs (scratchLocal : UInt32) : Nat → List ValType → List Nat → List Operator
  | i, t :: ts, off :: offs => storeArg scratchLocal i t off ++ storeArgs scratchLocal (i + 1) ts offs
  | _, _, _ => []

def loadResults (scratchLocal : UInt32) (base : Nat) : List ValType → List Nat → List Operator
  | t :: ts, off :: offs => loadResult scratchLocal t (base + off) ++ loadResults scratchLocal base ts offs
  | _, _ => []

/-- The operators of a trampoline, given both layouts. -/
def trampolineOps (fingerprint : UInt64) (imports : DispatchImports) (params results : List ValType)
    (argsLayout resultsLayout : PackedLayout) : List Operator :=
  let scratchSize := UInt32.ofNat (argsLayout.totalBytes + resultsLayout.totalBytes)
  let scratchLocal := UInt32.ofNat params.length
  let rcLocal := scratchLocal + 1
  -- scratch_ptr = alloc(scratch_size)
  [.i32Const scratchSize, .call imports.alloc, .localSet scratchLocal] ++
  storeArgs scratchLocal 0 params argsLayout.offsets ++
  -- rc = dispatch(fp_lo, fp_hi, scratch_ptr, args_len, results_len)
  [.i64Const (fingerprint &&& 0xFFFFFFFF), .i64Const (fingerprint >>> 32), .localGet scratchLocal,
    .i32Const (UInt32.ofNat argsLayout.totalBytes),
    .i32Const (UInt32.ofNat resultsLayout.totalBytes), .call imports.dispatch] ++
  -- a nonzero code frees the region and traps
  [.localTee rcLocal, .i32Const 0, .i32Ne, .if_ .empty, .localGet scratchLocal,
    .i32Const scratchSize, .call imports.free, .unreachable, .end_] ++
  loadResults scratchLocal argsLayout.totalBytes results resultsLayout.offsets ++
  [.localGet scratchLocal, .i32Const scratchSize, .call imports.free, .end_]

/-- Build a trampoline body for an offloaded function. -/
def buildTrampoline (fingerprint : UInt64) (imports : DispatchImports)
    (params results : List ValType) : Except RewriteError FuncBody :=
  match (params ++ results).find? fun t => !isSupportedPrimitive t with
  | some t => .error (.trampoline (.unsupportedType t))
  | none => do
    let argsLayout ← packLayout params
    let resultsLayout ← packLayout results
    let scratchSize ← checkedAddOr .scratchOverflow argsLayout.totalBytes resultsLayout.totalBytes
    if scratchSize > 2 ^ 31 - 1 then .error (.trampoline (.scratchTooLarge scratchSize))
    else .ok { locals := [(2, .num .i32)],
               ops := trampolineOps fingerprint imports params results argsLayout resultsLayout }

end TensorWasm.Jit
