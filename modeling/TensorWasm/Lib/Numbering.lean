import Mathlib.Logic.Function.Basic
import Mathlib.Data.List.Basic

/-!
# Partial numberings

A map that hands out numbers from a counter: no two keys share a number, and every number is below
the counter. Fresh numbers are taken at or above it.
-/

namespace TensorWasm.Lib

open Function (update update_of_ne update_self)

variable {κ : Type} [DecidableEq κ]

/-- Distinct keys have distinct numbers, all below `next`. -/
structure Numbered (ids : κ → Option Nat) (next : Nat) : Prop where
  below : ∀ k d, ids k = some d → d < next
  inj : ∀ k k' d, ids k = some d → ids k' = some d → k = k'

/-- The second map agrees with the first wherever that is defined. -/
def Extends (ids ids' : κ → Option Nat) : Prop := ∀ k d, ids k = some d → ids' k = some d

omit [DecidableEq κ] in
theorem Extends.refl (ids : κ → Option Nat) : Extends ids ids := fun _ _ h => h

omit [DecidableEq κ] in
theorem Extends.trans {a b c : κ → Option Nat} (hab : Extends a b) (hbc : Extends b c) :
    Extends a c := fun k d h => hbc k d (hab k d h)

variable {ids : κ → Option Nat}

theorem extends_update {k : κ} (hk : ids k = none) (d : Nat) : Extends ids (update ids k (some d)) := by
  intro k' d' h
  have hne : k' ≠ k := by
    rintro rfl
    rw [hk] at h
    cases h
  rw [update_of_ne hne]
  exact h

namespace Numbered

omit [DecidableEq κ] in
theorem none : Numbered (fun _ : κ => (Option.none : Option Nat)) 0 where
  below _ _ h := by cases h
  inj _ _ _ h := by cases h

omit [DecidableEq κ] in
theorem mono {n m : Nat} (h : Numbered ids n) (hnm : n ≤ m) : Numbered ids m where
  below k d hk := Nat.lt_of_lt_of_le (h.below k d hk) hnm
  inj := h.inj

/-- Giving a new key the counter's value and advancing the counter. -/
theorem bind {n : Nat} (h : Numbered ids n) (k : κ) : Numbered (update ids k (some n)) (n + 1) where
  below k' d hd := by
    by_cases hk : k' = k
    · subst hk
      rw [update_self] at hd
      cases hd
      exact Nat.lt_succ_self n
    · rw [update_of_ne hk] at hd
      exact Nat.lt_succ_of_lt (h.below k' d hd)
  inj k₁ k₂ d h₁ h₂ := by
    -- An old key cannot hold the counter's value.
    have hold : ∀ k' d', k' ≠ k → update ids k (some n) k' = some d' → d' < n := by
      intro k' d' hne hd'
      rw [update_of_ne hne] at hd'
      exact h.below k' d' hd'
    have hnew : update ids k (some n) k = some n := update_self ..
    by_cases hk₁ : k₁ = k
    · by_cases hk₂ : k₂ = k
      · rw [hk₁, hk₂]
      · rw [hk₁, hnew] at h₁
        cases h₁
        exact absurd (hold k₂ n hk₂ h₂) (Nat.lt_irrefl n)
    · by_cases hk₂ : k₂ = k
      · rw [hk₂, hnew] at h₂
        cases h₂
        exact absurd (hold k₁ n hk₁ h₁) (Nat.lt_irrefl n)
      · rw [update_of_ne hk₁] at h₁
        rw [update_of_ne hk₂] at h₂
        exact h.inj k₁ k₂ d h₁ h₂

end Numbered

/-- A list of numbers taken from a counter while it went from `lo` to `hi`. -/
structure Taken (ids : List Nat) (lo hi : Nat) : Prop where
  sorted : ids.Pairwise (· < ·)
  ge : ∀ d ∈ ids, lo ≤ d
  lt : ∀ d ∈ ids, d < hi
  le : lo ≤ hi

namespace Taken

theorem nil {lo hi : Nat} (h : lo ≤ hi) : Taken [] lo hi :=
  ⟨.nil, fun _ hd => (nomatch hd), fun _ hd => (nomatch hd), h⟩

theorem single {lo n : Nat} (h : lo ≤ n) : Taken [n] lo (n + 1) where
  sorted := List.pairwise_singleton ..
  ge d hd := by rwa [List.mem_singleton.mp hd]
  lt d hd := by
    rw [List.mem_singleton.mp hd]
    exact Nat.lt_succ_self n
  le := Nat.le_succ_of_le h

theorem append {xs ys : List Nat} {lo mid hi : Nat} (hx : Taken xs lo mid) (hy : Taken ys mid hi) :
    Taken (xs ++ ys) lo hi where
  sorted := List.pairwise_append.mpr ⟨hx.sorted, hy.sorted, fun a ha b hb =>
    Nat.lt_of_lt_of_le (hx.lt a ha) (hy.ge b hb)⟩
  ge d hd := by
    cases List.mem_append.mp hd with
    | inl hd => exact hx.ge d hd
    | inr hd => exact Nat.le_trans hx.le (hy.ge d hd)
  lt d hd := by
    cases List.mem_append.mp hd with
    | inl hd => exact Nat.lt_of_lt_of_le (hx.lt d hd) hy.le
    | inr hd => exact hy.lt d hd
  le := Nat.le_trans hx.le hy.le

theorem nodup {xs : List Nat} {lo hi : Nat} (h : Taken xs lo hi) : xs.Nodup :=
  h.sorted.imp Nat.ne_of_lt

end Taken

end TensorWasm.Lib
