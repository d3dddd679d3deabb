import TensorWasm.Lib.Bytes

/-!
# Linear memory

A memory is its length in bytes and its contents. Only addresses below the length mean anything;
the accessors check it and every operation leaves the rest alone.
-/

namespace TensorWasm.Wasm

/-- Bytes in a page. -/
def pageSize : Nat := 65536

structure Memory where
  len : Nat
  byte : Nat → UInt8

namespace Memory

/-- A zeroed memory of a number of pages. -/
def ofPages (pages : Nat) : Memory := ⟨pages * pageSize, fun _ => 0⟩

/-- Add zeroed pages. -/
def grow (m : Memory) (pages : Nat) : Memory :=
  ⟨m.len + pages * pageSize, fun a => if a < m.len then m.byte a else 0⟩

/-- The bytes of a range. -/
def read (m : Memory) (addr n : Nat) : Bytes := (List.range n).map fun i => m.byte (addr + i)

/-- Overwrite a range. -/
def write (m : Memory) (addr : Nat) (bs : Bytes) : Memory :=
  { m with byte := fun a => if addr ≤ a then (bs[a - addr]?).getD (m.byte a) else m.byte a }

variable (m : Memory)

@[simp] theorem len_grow (pages : Nat) : (m.grow pages).len = m.len + pages * pageSize := rfl

@[simp] theorem len_write (addr : Nat) (bs : Bytes) : (m.write addr bs).len = m.len := rfl

@[simp] theorem length_read (addr n : Nat) : (m.read addr n).length = n := by simp [read]

theorem byte_write (addr : Nat) (bs : Bytes) (i : Nat) (hi : i < bs.length) :
    (m.write addr bs).byte (addr + i) = bs[i] := by
  simp [write, hi]

theorem byte_write_of_lt {addr a : Nat} (bs : Bytes) (h : a < addr) : (m.write addr bs).byte a = m.byte a := by
  simp only [write, if_neg (Nat.not_le.mpr h)]

theorem byte_write_of_ge {addr a : Nat} (bs : Bytes) (h : addr + bs.length ≤ a) :
    (m.write addr bs).byte a = m.byte a := by
  have hnone : bs[a - addr]? = none := List.getElem?_eq_none (by omega)
  simp only [write, hnone, Option.getD_none, ite_self]

/-- What was written is what is read. -/
theorem read_write (addr : Nat) (bs : Bytes) : (m.write addr bs).read addr bs.length = bs := by
  apply List.ext_getElem
  · simp
  · intro i h1 h2
    simp only [read, List.getElem_map, List.getElem_range]
    exact m.byte_write addr bs i h2

/-- A write leaves the reads of other ranges alone. -/
theorem read_write_of_separate {addr addr' n : Nat} (bs : Bytes)
    (h : addr' + n ≤ addr ∨ addr + bs.length ≤ addr') : (m.write addr bs).read addr' n = m.read addr' n := by
  refine List.map_congr_left fun i hi => ?_
  have hlt := List.mem_range.mp hi
  rcases h with h | h
  · exact m.byte_write_of_lt bs (by omega)
  · exact m.byte_write_of_ge bs (by omega)

end Memory

end TensorWasm.Wasm
