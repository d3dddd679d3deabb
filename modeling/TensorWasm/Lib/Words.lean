import Mathlib

/-!
# 32-bit words read as numbers

A guest passes `i32` arguments that a host reads both ways: a signed comparison rejects what must
not be negative, and the bits are then used unsigned. These lemmas turn such tests, and the usual
alignment mask, into statements about `Nat`.
-/

namespace TensorWasm.Lib

theorem int32_toInt (x : Int32) : x.toInt =
    if 2 * x.toUInt32.toNat < 2 ^ 32 then (x.toUInt32.toNat : Int)
    else (x.toUInt32.toNat : Int) - 2 ^ 32 := by
  have h := BitVec.toInt_eq_toNat_cond x.toUInt32.toBitVec
  rw [UInt32.toNat_toBitVec] at h
  exact h

/-- Not positive: zero, or the sign bit is set. -/
theorem int32_le_zero_iff {x : Int32} : x ≤ 0 ↔ x.toUInt32.toNat = 0 ∨ 2 ^ 31 ≤ x.toUInt32.toNat := by
  have hlt := x.toUInt32.toNat_lt
  rw [Int32.le_iff_toInt_le, Int32.toInt_zero, int32_toInt]
  split <;> omega

/-- Negative: the sign bit is set. -/
theorem int32_lt_zero_iff {x : Int32} : x < 0 ↔ 2 ^ 31 ≤ x.toUInt32.toNat := by
  have hlt := x.toUInt32.toNat_lt
  rw [Int32.lt_iff_toInt_lt, Int32.toInt_zero, int32_toInt]
  split <;> omega

/-- Clearing the low `k` bits. -/
theorem bitVec_and_not_mask {w : Nat} (x : BitVec w) (k : Nat) :
    x &&& ~~~BitVec.ofNat w (2 ^ k - 1) = (x >>> k) <<< k := by
  apply BitVec.eq_of_getLsbD_eq
  intro i hi
  simp only [BitVec.getLsbD_and, BitVec.getLsbD_not, BitVec.getLsbD_ofNat,
    Nat.testBit_two_pow_sub_one, BitVec.getLsbD_shiftLeft, BitVec.getLsbD_ushiftRight, hi,
    decide_true, Bool.true_and]
  by_cases h : i < k
  · simp [h]
  · simp [h, Nat.add_sub_of_le (Nat.le_of_not_lt h)]

/-- `v & !mask` on 64-bit words. -/
def clearBits (v mask : Nat) : Nat := (BitVec.ofNat 64 v &&& ~~~BitVec.ofNat 64 mask).toNat

theorem clearBits_two_pow {v : Nat} (h : v < 2 ^ 64) (k : Nat) : clearBits v (2 ^ k - 1) = v / 2 ^ k * 2 ^ k := by
  have hle : v / 2 ^ k * 2 ^ k ≤ v := Nat.div_mul_le_self v _
  rw [clearBits, bitVec_and_not_mask]
  simp only [BitVec.toNat_shiftLeft, BitVec.toNat_ushiftRight, BitVec.toNat_ofNat,
    Nat.shiftRight_eq_div_pow, Nat.shiftLeft_eq, Nat.mod_eq_of_lt h]
  exact Nat.mod_eq_of_lt (by omega)

/-- `(n + 7) & !7` rounds up to a multiple of eight. -/
theorem toNat_round_up_eight {n : UInt32} (h : n.toNat + 7 < 2 ^ 32) :
    ((n + 7) &&& ~~~7).toNat = (n.toNat + 7) / 8 * 8 := by
  have hbits : ((n + 7) &&& ~~~7).toBitVec = ((n + 7).toBitVec >>> 3) <<< 3 :=
    bitVec_and_not_mask _ 3
  have hnat := congrArg BitVec.toNat hbits
  rw [UInt32.toNat_toBitVec] at hnat
  rw [hnat]
  simp only [UInt32.toBitVec_add, UInt32.toBitVec_ofNat, BitVec.toNat_shiftLeft,
    BitVec.toNat_ushiftRight, BitVec.toNat_add, BitVec.toNat_ofNat, UInt32.toNat_toBitVec,
    Nat.shiftRight_eq_div_pow, Nat.shiftLeft_eq]
  omega

/-- Flooring twice is flooring once. -/
theorem uint32_max_max (a b : UInt32) : max (max a b) b = max a b := by
  have hmax : ∀ x y : UInt32, max x y = if x ≤ y then y else x := fun _ _ => rfl
  by_cases h : a ≤ b
  · rw [hmax a b, if_pos h, hmax, if_pos (UInt32.le_refl b)]
  · rw [hmax a b, if_neg h, hmax, if_neg h]

end TensorWasm.Lib
