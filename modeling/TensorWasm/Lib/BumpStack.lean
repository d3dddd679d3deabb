import Mathlib.Data.List.Basic
import Mathlib.Tactic.Linarith

/-!
# A stack of blocks that grows downwards

Blocks `(base, size)` listed newest first, each one ending where the block before it starts, the
oldest at a fixed `top`. This is the shape a downward bump allocator with last-in first-out release
keeps: `push` and `pop` are its two operations, and disjointness and bounds follow from the shape.
-/

namespace TensorWasm.Lib

/-- `Stacked top c blocks`: the blocks fill `[c, top)` without gaps, newest first. -/
def Stacked (top : Nat) : Nat → List (Nat × Nat) → Prop
  | c, [] => c = top
  | c, b :: rest => c = b.1 ∧ Stacked top (b.1 + b.2) rest

/-- The bytes the blocks occupy. -/
def totalSize (blocks : List (Nat × Nat)) : Nat := (blocks.map Prod.snd).sum

@[simp] theorem totalSize_cons (b : Nat × Nat) (rest : List (Nat × Nat)) :
    totalSize (b :: rest) = b.2 + totalSize rest := by
  simp [totalSize]

/-- Two blocks share no address. -/
def Separate (b b' : Nat × Nat) : Prop := b.1 + b.2 ≤ b'.1 ∨ b'.1 + b'.2 ≤ b.1

namespace Stacked

variable {top c : Nat} {blocks : List (Nat × Nat)} (h : Stacked top c blocks)

include h

theorem push {size : Nat} (hsize : size ≤ c) : Stacked top (c - size) ((c - size, size) :: blocks) := by
  refine ⟨rfl, ?_⟩
  rw [Nat.sub_add_cancel hsize]
  exact h

omit h in
theorem pop {b : Nat × Nat} (h : Stacked top c (b :: blocks)) : c = b.1 ∧ Stacked top (b.1 + b.2) blocks := h

/-- The cursor is the top less the occupied bytes. -/
theorem cursor_add : c + totalSize blocks = top := by
  induction blocks generalizing c with
  | nil => exact h
  | cons b rest ih =>
    obtain ⟨rfl, hrest⟩ := h
    have hrec := ih hrest
    rw [totalSize_cons, ← Nat.add_assoc]
    exact hrec

theorem cursor_le : c ≤ top := by
  have := h.cursor_add
  omega

theorem mem_bounds : ∀ b ∈ blocks, c ≤ b.1 ∧ b.1 + b.2 ≤ top := by
  induction blocks generalizing c with
  | nil =>
    intro b hb
    cases hb
  | cons b rest ih =>
    obtain ⟨rfl, hrest⟩ := h
    intro b' hb'
    rcases List.mem_cons.mp hb' with rfl | hb'
    · exact ⟨Nat.le_refl _, hrest.cursor_le⟩
    · obtain ⟨hlow, hhigh⟩ := ih hrest b' hb'
      exact ⟨by omega, hhigh⟩

theorem pairwise_separate : blocks.Pairwise Separate := by
  induction blocks generalizing c with
  | nil => exact .nil
  | cons b rest ih =>
    obtain ⟨rfl, hrest⟩ := h
    refine List.pairwise_cons.mpr ⟨?_, ih hrest⟩
    intro b' hb'
    exact .inl (hrest.mem_bounds b' hb').1

end Stacked

end TensorWasm.Lib
