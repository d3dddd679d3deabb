import Mathlib.Algebra.Group.Nat.Defs
import Mathlib.Data.Nat.Basic

/-!
# 64-bit counters

The checked and saturating operations of `u64`, and what they are on numbers.
-/

namespace TensorWasm.Lib

def checkedAdd (a b : UInt64) : Option UInt64 :=
  if a.toNat + b.toNat < 2 ^ 64 then some (a + b) else none

def saturatingAdd (a b : UInt64) : UInt64 := (checkedAdd a b).getD 18446744073709551615

def saturatingSub (a b : UInt64) : UInt64 := if b ≤ a then a - b else 0

theorem toNat_of_checkedAdd {a b next : UInt64} (h : checkedAdd a b = some next) :
    next.toNat = a.toNat + b.toNat := by
  unfold checkedAdd at h
  split at h
  · next hfits =>
    cases h
    rw [UInt64.toNat_add, Nat.mod_eq_of_lt hfits]
  · cases h

theorem le_of_checkedAdd_eq_none {a b : UInt64} (h : checkedAdd a b = none) : 2 ^ 64 ≤ a.toNat + b.toNat := by
  unfold checkedAdd at h
  split at h
  · cases h
  · next hover => exact Nat.le_of_not_lt hover

/-- A sum that stays below the largest value has not been cut off. -/
theorem toNat_saturatingAdd {a b : UInt64} (h : saturatingAdd a b < 18446744073709551615) :
    (saturatingAdd a b).toNat = a.toNat + b.toNat := by
  unfold saturatingAdd at h ⊢
  cases hadd : checkedAdd a b with
  | none =>
    rw [hadd] at h
    exact absurd h (UInt64.lt_irrefl _)
  | some next => exact toNat_of_checkedAdd hadd

theorem toNat_saturatingSub (a b : UInt64) : (saturatingSub a b).toNat = a.toNat - b.toNat := by
  unfold saturatingSub
  split
  · next h => exact UInt64.toNat_sub_of_le a b h
  · next h =>
    have hlt := UInt64.lt_iff_toNat_lt.mp (UInt64.not_le.mp h)
    exact (Nat.sub_eq_zero_of_le (Nat.le_of_lt hlt)).symm

theorem saturatingSub_le (a b : UInt64) : saturatingSub a b ≤ a := by
  rw [UInt64.le_iff_toNat_le, toNat_saturatingSub]
  exact Nat.sub_le _ _

/-- The next value, if it does not wrap around. -/
theorem toNat_add_one {a : UInt64} (h : a + 1 ≠ 0) : (a + 1).toNat = a.toNat + 1 := by
  have hne : (a + 1).toNat ≠ 0 := fun h0 => h (UInt64.toNat_inj.mp h0)
  have hlt := a.toNat_lt
  rw [UInt64.toNat_add, UInt64.toNat_one] at hne ⊢
  omega

end TensorWasm.Lib
