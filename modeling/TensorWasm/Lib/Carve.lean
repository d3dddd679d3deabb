import TensorWasm.Lib.BumpStack

/-!
# Blocks carved below a rising cursor

Blocks `(base, size)` handed out in ascending order by a cursor that never moves back while a block
is held. `Carved` is what such an allocator keeps whatever the order in which blocks are given back;
a new block starts at or above the cursor, so that rounding up for alignment is allowed.
-/

namespace TensorWasm.Lib

/-- The held blocks share no address, lie below the cursor and are not empty. -/
structure Carved (cursor : Nat) (blocks : List (Nat × Nat)) : Prop where
  separate : blocks.Pairwise Separate
  below : ∀ b ∈ blocks, b.1 + b.2 ≤ cursor
  nonempty : ∀ b ∈ blocks, 0 < b.2
  total : totalSize blocks ≤ cursor

theorem Separate.symm {b b' : Nat × Nat} (h : Separate b b') : Separate b' b := Or.symm h

namespace Carved

variable {cursor : Nat} {blocks : List (Nat × Nat)}

theorem nil (cursor : Nat) : Carved cursor [] :=
  ⟨.nil, nofun, nofun, Nat.zero_le _⟩

/-- A block at or above the cursor is separate from every held one. -/
theorem carve (h : Carved cursor blocks) {start size : Nat} (hstart : cursor ≤ start)
    (hsize : 0 < size) : Carved (start + size) ((start, size) :: blocks) where
  separate := List.pairwise_cons.mpr
    ⟨fun b hb => .inr ((h.below b hb).trans hstart), h.separate⟩
  below := by
    intro b hb
    rcases List.mem_cons.mp hb with rfl | hb
    · exact Nat.le_refl _
    · have := h.below b hb
      omega
  nonempty := by
    intro b hb
    rcases List.mem_cons.mp hb with rfl | hb
    · exact hsize
    · exact h.nonempty b hb
  total := by
    have := h.total
    rw [totalSize_cons]
    show size + totalSize blocks ≤ start + size
    omega

theorem perm {blocks' : List (Nat × Nat)} (h : Carved cursor blocks) (hperm : blocks.Perm blocks') :
    Carved cursor blocks' where
  separate := (hperm.pairwise_iff Separate.symm).mp h.separate
  below := fun b hb => h.below b (hperm.mem_iff.mpr hb)
  nonempty := fun b hb => h.nonempty b (hperm.mem_iff.mpr hb)
  total := by
    have hsum : totalSize blocks' = totalSize blocks := (hperm.map Prod.snd).sum_nat.symm
    rw [hsum]
    exact h.total

/-- Giving a block back. -/
theorem tail {b : Nat × Nat} (h : Carved cursor (b :: blocks)) : Carved cursor blocks where
  separate := (List.pairwise_cons.mp h.separate).2
  below := fun b' hb => h.below b' (List.mem_cons_of_mem _ hb)
  nonempty := fun b' hb => h.nonempty b' (List.mem_cons_of_mem _ hb)
  total := by
    have := h.total
    rw [totalSize_cons] at this
    omega

/-- There are at most as many blocks as bytes below the cursor. -/
theorem length_le (h : Carved cursor blocks) : blocks.length ≤ cursor := by
  refine Nat.le_trans ?_ h.total
  have hnonempty := h.nonempty
  clear h
  induction blocks with
  | nil => exact Nat.le_refl _
  | cons b rest ih =>
    rw [List.forall_mem_cons] at hnonempty
    have := ih hnonempty.2
    rw [totalSize_cons, List.length_cons]
    omega

end Carved

end TensorWasm.Lib
