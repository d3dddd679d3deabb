import TensorWasm.Jit.PtxEmit

/-!
# What an emitted body computes

A meaning for the straight-line body `lowerBody` produces: a register file, an input buffer read
through `%rd0`, and an output buffer written through `%rd1`. Floating point is left uninterpreted
(`F32Ops`), so nothing below depends on rounding; `.s32` arithmetic is wrapping. A load outside the
input buffer and the experimental wmma step have no meaning here and stop the run.
-/

namespace TensorWasm.Jit

open Lib

/-- The three `f32` operations on bit patterns, shared by the kernel and the reference. -/
structure F32Ops where
  add : BitVec 32 → BitVec 32 → BitVec 32
  mul : BitVec 32 → BitVec 32 → BitVec 32
  fma : BitVec 32 → BitVec 32 → BitVec 32 → BitVec 32

/-- The little-endian bytes of a 32-bit lane. -/
def wordBytes (w : BitVec 32) : Bytes := leBytes 4 w.toNat

/-- The 32-bit lane at a byte offset, when all four bytes are there. -/
def readWord (buf : Bytes) (off : Nat) : Option (BitVec 32) :=
  if off + 4 ≤ buf.length then some (BitVec.ofNat 32 (ofLeBytes ((buf.drop off).take 4))) else none

/-- A thread's registers and the output buffer; `none` is a byte the kernel has not written. -/
structure PtxState where
  f : Nat → BitVec 32
  r : Nat → BitVec 32
  out : Nat → Option UInt8

namespace PtxState

/-- Nothing written yet, registers arbitrary. -/
def fresh (f r : Nat → BitVec 32) : PtxState := ⟨f, r, fun _ => none⟩

def reg (m : PtxState) : RegClass → Nat → BitVec 32
  | .f32 => m.f
  | .s32 => m.r

def setReg (m : PtxState) (cls : RegClass) (dst : Nat) (w : BitVec 32) : PtxState :=
  match cls with
  | .f32 => { m with f := Function.update m.f dst w }
  | .s32 => { m with r := Function.update m.r dst w }

/-- Write four bytes of the output buffer. -/
def writeWord (m : PtxState) (off : Nat) (w : BitVec 32) : PtxState :=
  { m with out := fun i =>
      if off ≤ i ∧ i < off + 4 then (wordBytes w)[i - off]? else m.out i }

end PtxState

/-- Two-operand arithmetic. -/
def Mnemonic.apply2 (fo : F32Ops) : Mnemonic → Option (BitVec 32 → BitVec 32 → BitVec 32)
  | .addF32 => some fo.add
  | .addS32 => some (· + ·)
  | .mulF32 => some fo.mul
  | .mulLoS32 => some (· * ·)
  | .fmaRnF32 => none

/-- Three-operand arithmetic. -/
def Mnemonic.apply3 (fo : F32Ops) :
    Mnemonic → Option (BitVec 32 → BitVec 32 → BitVec 32 → BitVec 32)
  | .fmaRnF32 => some fo.fma
  | _ => none

/-- One instruction over an input buffer. -/
def execInstr (fo : F32Ops) (inputs : Bytes) (i : PtxInstr) (m : PtxState) : Option PtxState :=
  match i with
  | .comment _ => some m
  | .arith2 mn cls dst a b => (mn.apply2 fo).map fun op =>
      m.setReg cls dst (op (m.reg cls a) (m.reg cls b))
  | .arith3 mn cls dst a b c => (mn.apply3 fo).map fun op =>
      m.setReg cls dst (op (m.reg cls a) (m.reg cls b) (m.reg cls c))
  | .ld _ cls dst off => (readWord inputs off).map fun w => m.setReg cls dst w
  | .st _ cls src off => some (m.writeWord off (m.reg cls src))
  -- one thread is modelled; a barrier orders it with others and changes no value
  | .barSync => some m
  | .wmma .. => none

def execBody (fo : F32Ops) (inputs : Bytes) : List PtxInstr → PtxState → Option PtxState
  | [], m => some m
  | i :: is, m => (execInstr fo inputs i m).bind (execBody fo inputs is)

theorem execBody_append (fo : F32Ops) (inputs : Bytes) (is js : List PtxInstr) (m : PtxState) :
    execBody fo inputs (is ++ js) m = (execBody fo inputs is m).bind (execBody fo inputs js) := by
  induction is generalizing m with
  | nil => rfl
  | cons i is ih =>
    simp only [List.cons_append, execBody]
    cases execInstr fo inputs i m with
    | none => rfl
    | some m1 => exact ih m1

@[simp] theorem length_wordBytes (w : BitVec 32) : (wordBytes w).length = 4 := length_leBytes 4 _

theorem length_flatMap_wordBytes (ws : List (BitVec 32)) : (ws.flatMap wordBytes).length = 4 * ws.length := by
  induction ws with
  | nil => rfl
  | cons w ws ih =>
    simp only [List.flatMap_cons, List.length_append, ih, length_wordBytes, List.length_cons]
    omega

/-- Reading back a word that was written in a stream of words. -/
theorem readWord_flatMap {ws : List (BitVec 32)} {i : Nat} {w : BitVec 32} (h : ws[i]? = some w) :
    readWord (ws.flatMap wordBytes) (4 * i) = some w := by
  induction ws generalizing i with
  | nil => simp at h
  | cons x ws ih =>
    rcases i with _ | i
    · obtain rfl := Option.some.inj h
      have htake : ((wordBytes x ++ ws.flatMap wordBytes).drop 0).take 4 = wordBytes x :=
        List.take_left' (length_wordBytes x)
      simp only [readWord, List.flatMap_cons, Nat.mul_zero, htake]
      rw [if_pos (by simp)]
      simp [wordBytes, ofLeBytes_leBytes_of_lt (show x.toNat < 256 ^ 4 from x.isLt)]
    · have hd : (wordBytes x ++ ws.flatMap wordBytes).drop (4 * (i + 1)) =
          (ws.flatMap wordBytes).drop (4 * i) := by
        rw [Nat.mul_succ, Nat.add_comm, ← List.drop_drop, List.drop_left' (length_wordBytes x)]
      have hih := ih (i := i) (by simpa using h)
      simp only [readWord, List.flatMap_cons, hd, List.length_append, length_wordBytes] at hih ⊢
      by_cases hle : 4 * i + 4 ≤ (ws.flatMap wordBytes).length
      · rw [if_pos hle] at hih
        rw [if_pos (by omega), hih]
      · rw [if_neg hle] at hih
        cases hih

end TensorWasm.Jit
