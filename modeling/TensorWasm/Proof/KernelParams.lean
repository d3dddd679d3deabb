import TensorWasm.WasiGpu.KernelArgs

/-!
# The layout of kernel parameters

`push_slot` pads the buffer to the alignment of the value before it writes it, so the offsets of the slots are
aligned, and every slot lies behind all earlier ones. The addresses that the kernel reads through are the offsets
from wherever the allocator has put a buffer of bytes: they are aligned just when that base is.
-/

namespace TensorWasm.WasiGpu

open Lib List

def LoweredArg.size (a : LoweredArg) : Nat := a.tag.valueBytes

variable (order : ByteOrder)

@[simp] theorem length_neBytes (w n : Nat) : (neBytes order w n).length = w := by
  cases order with
  | little => exact length_leBytes w n
  | big => rw [neBytes, length_reverse, length_leBytes]

@[simp] theorem length_nativeBytes (a : LoweredArg) : (a.nativeBytes order).length = a.size := by
  cases a <;> exact length_neBytes order _ _

/-- Padding by the bit trick reaches a multiple of a power of two. -/
theorem dvd_add_padding (n : Nat) {k : Nat} (hk : k ≤ 64) : 2 ^ k ∣ n + (wrappingNeg n &&& (2 ^ k - 1)) := by
  have hwhole : 2 ^ k ∣ 2 ^ 64 := Nat.pow_dvd_pow 2 hk
  have hneg : 2 ^ 64 ∣ n + wrappingNeg n := by
    unfold wrappingNeg
    omega
  rw [Nat.and_two_pow_sub_one_eq_mod, Nat.dvd_iff_mod_eq_zero, Nat.add_mod_mod]
  exact Nat.mod_eq_zero_of_dvd (hwhole.trans hneg)

theorem LoweredArg.align_dvd_padded (a : LoweredArg) (n : Nat) : a.align ∣ n + (wrappingNeg n &&& (a.align - 1)) := by
  cases a with
  | i32 _ | f32 _ | u32 _ => exact dvd_add_padding n (k := 2) (by decide)
  | i64 _ | f64 _ | u64 _ | ptr _ _ _ => exact dvd_add_padding n (k := 3) (by decide)

/-- What the slots of a layout are, for the arguments laid out so far. -/
structure LaidOut (order : ByteOrder) (args : List LoweredArg) (l : ParamLayout) : Prop where
  length : l.offsets.length = args.length
  apart : (l.offsets.zip args).Pairwise fun x y => x.1 + x.2.size ≤ y.1
  inside : ∀ x ∈ l.offsets.zip args, x.1 + x.2.size ≤ l.backing.length
  bytes : ∀ x ∈ l.offsets.zip args, slice l.backing x.1 (x.1 + x.2.size) = x.2.nativeBytes order
  aligned : ∀ x ∈ l.offsets.zip args, x.2.align ∣ x.1

theorem LaidOut.pushSlot {order : ByteOrder} {args : List LoweredArg} {l : ParamLayout} (h : LaidOut order args l)
    (a : LoweredArg) : LaidOut order (args ++ [a]) (l.pushSlot a.align (a.nativeBytes order)) := by
  obtain ⟨padding, hpadding⟩ : ∃ n, n = wrappingNeg l.backing.length &&& (a.align - 1) := ⟨_, rfl⟩
  have hlayout : l.pushSlot a.align (a.nativeBytes order) =
      ⟨l.backing ++ List.replicate padding 0 ++ a.nativeBytes order, l.offsets ++ [l.backing.length + padding]⟩ := by
    rw [hpadding, ParamLayout.pushSlot, length_append, length_replicate]
  have hzip : (l.offsets ++ [l.backing.length + padding]).zip (args ++ [a]) =
      l.offsets.zip args ++ [(l.backing.length + padding, a)] := by
    rw [zip_append h.length]
    rfl
  have haligned : a.align ∣ l.backing.length + padding := by
    rw [hpadding]
    exact a.align_dvd_padded _
  rw [hlayout]
  refine ⟨?_, ?_, ?_, ?_, ?_⟩
  · simp [h.length]
  · rw [hzip, pairwise_append]
    refine ⟨h.apart, pairwise_singleton _ _, fun x hx y hy => ?_⟩
    cases mem_singleton.mp hy
    exact (h.inside x hx).trans (Nat.le_add_right _ _)
  all_goals
    intro x hx
    rw [hzip, mem_append, mem_singleton] at hx
  · rcases hx with hx | rfl
    · have := h.inside x hx
      simp only [length_append]
      omega
    · simp [Nat.add_assoc]
  · rcases hx with hx | rfl
    · rw [append_assoc, slice_append_of_le _ (h.inside x hx), h.bytes x hx]
    · have hstart : (l.backing ++ List.replicate padding (0 : UInt8)).length = l.backing.length + padding := by simp
      rw [slice_append_right hstart.le, hstart, Nat.sub_self, Nat.add_sub_cancel_left]
      exact slice_all (length_nativeBytes order a).le
  · rcases hx with hx | rfl
    · exact h.aligned x hx
    · exact haligned

theorem laidOut_layOut (args : List LoweredArg) : LaidOut order args (layOut order args) := by
  -- from the right, as the fold pushes the last argument last
  induction args using List.reverseRecOn with
  | nil => exact ⟨rfl, .nil, nofun, nofun, nofun⟩
  | append_singleton args a ih =>
    rw [layOut, foldl_append]
    exact ih.pushSlot a

/-- For every argument list, wherever the buffer is: the slots are in the order of the arguments, apart, inside the
buffer, and hold the values; they are all aligned just when the buffer starts at a multiple of every alignment. -/
theorem kernel_params_aligned_iff (order : ByteOrder) (base : Nat) (args : List LoweredArg) :
    let storage := buildKernelParamStorage order base args
    storage.slots.length = args.length ∧ (storage.slots.zip args).Pairwise (fun x y => x.1 + x.2.size ≤ y.1) ∧
    (∀ x ∈ storage.slots.zip args, base ≤ x.1 ∧ x.1 + x.2.size ≤ base + storage.backing.length ∧
      slice storage.backing (x.1 - base) (x.1 - base + x.2.size) = x.2.nativeBytes order) ∧
    ((∀ x ∈ storage.slots.zip args, x.2.align ∣ x.1) ↔ ∀ a ∈ args, a.align ∣ base) := by
  intro storage
  have h := laidOut_layOut order args
  have hzip : storage.slots.zip args = ((layOut order args).offsets.zip args).map fun x => (base + x.1, x.2) :=
    zip_map_left
  refine ⟨?_, ?_, ?_, ?_⟩
  · exact (length_map _).trans h.length
  · rw [hzip, pairwise_map]
    exact h.apart.imp fun hxy => by simpa [Nat.add_assoc] using hxy
  · rw [hzip, forall_mem_map]
    intro x hx
    refine ⟨Nat.le_add_right _ _, ?_, ?_⟩
    · rw [Nat.add_assoc]
      exact Nat.add_le_add_left (h.inside x hx) base
    · rw [Nat.add_sub_cancel_left]
      exact h.bytes x hx
  · rw [hzip, forall_mem_map]
    have hslot : ∀ x ∈ (layOut order args).offsets.zip args, (x.2.align ∣ base + x.1 ↔ x.2.align ∣ base) :=
      fun x hx => (Nat.dvd_add_iff_left (h.aligned x hx)).symm
    constructor
    · intro haligned a ha
      obtain ⟨x, hx, rfl⟩ : ∃ x ∈ (layOut order args).offsets.zip args, x.2 = a := by
        rw [← mem_map (f := Prod.snd), map_snd_zip h.length.ge]
        exact ha
      exact (hslot x hx).mp (haligned x hx)
    · intro hbase x hx
      exact (hslot x hx).mpr (hbase x.2 (of_mem_zip hx).2)

/-- A buffer at an odd address. -/
theorem odd_base_misaligns :
    (buildKernelParamStorage .little 1 [.f64 0]).slots = [1] ∧ ¬ (LoweredArg.f64 0).align ∣ 1 := by decide

end TensorWasm.WasiGpu
