import Mathlib.Order.Lattice
import Mathlib.Data.List.Basic

/-!
# Inserting into a sorted list by binary search

The search halves the interval `[base, base + size)` that may still hold the key, keeping that
everything from `base + size` on is above the key, and that `base` itself is not, once it has moved.
What it finds splits a sorted list in two; inserting at the split keeps the list sorted.
-/

namespace TensorWasm.Lib

open List

variable {α : Type} [LinearOrder α]

/-! ## The search -/

/-- The loop: halve the interval, and return where it starts once it has one element. -/
def searchBase (xs : List α) (x : α) (base size : Nat) (h : base + size ≤ xs.length) : Nat :=
  if hsize : 1 < size then
    if x < xs[base + size / 2] then
      searchBase xs x base (size - size / 2) (by omega)
    else
      searchBase xs x (base + size / 2) (size - size / 2) (by omega)
  else base
termination_by size

/-- The comparison after the loop: the position is the key's, or the key belongs next to it. -/
def searchResult (xs : List α) (x : α) (base : Nat) : Except Nat Nat :=
  match xs[base]? with
  | none => .error 0
  | some v => if v = x then .ok base else .error (if v < x then base + 1 else base)

/-- Where the key is, or where it would be inserted. -/
def binarySearch (xs : List α) (x : α) : Except Nat Nat :=
  searchResult xs x (searchBase xs x 0 xs.length (by omega))

variable {xs : List α} {base : Nat} {x : α}

theorem searchResult_eq (hlt : base < xs.length) :
    searchResult xs x base =
      if xs[base] = x then .ok base else .error (if xs[base] < x then base + 1 else base) := by
  unfold searchResult
  rw [List.getElem?_eq_getElem hlt]

theorem searchBase_lt {size : Nat} (h : base + size ≤ xs.length) (hsize : 0 < size) :
    searchBase xs x base size h < xs.length := by
  fun_induction searchBase xs x base size h with
  | case1 base size h _ _ ih | case2 base size h _ _ ih => exact ih (by omega)
  | case3 base size h _ => omega

/-- Nothing above the returned position is at most the key. -/
theorem lt_above_searchBase {size : Nat} (h : base + size ≤ xs.length) (hsorted : xs.Pairwise (· < ·))
    (hsize : 0 < size) (habove : ∀ i, base + size ≤ i → ∀ hi : i < xs.length, x < xs[i]) :
    ∀ i, searchBase xs x base size h < i → ∀ hi : i < xs.length, x < xs[i] := by
  fun_induction searchBase xs x base size h with
  | case1 base size h hone hlt ih =>
    refine ih (by omega) ?_
    intro i hle hi
    rcases Nat.eq_or_lt_of_le (show base + size / 2 ≤ i by omega) with rfl | hgt
    · exact hlt
    · exact hlt.trans (pairwise_iff_getElem.mp hsorted _ _ _ hi hgt)
  | case2 base size h hone hlt ih =>
    refine ih (by omega) ?_
    intro i hle hi
    exact habove i (by omega) hi
  | case3 base size h hone =>
    intro i hlt hi
    exact habove i (by omega) hi

/-- A returned position other than the first holds an element that is at most the key. -/
theorem searchBase_le {size : Nat} (h : base + size ≤ xs.length)
    (hbase : ∀ hlt : base < xs.length, 0 < base → xs[base] ≤ x) :
    ∀ hlt : searchBase xs x base size h < xs.length, 0 < searchBase xs x base size h →
      xs[searchBase xs x base size h] ≤ x := by
  fun_induction searchBase xs x base size h with
  | case1 base size h _ _ ih => exact ih hbase
  | case2 base size h _ hle ih => exact ih fun _ _ => not_lt.mp hle
  | case3 base size h _ => exact hbase

/-- The search splits a sorted list at the key. -/
theorem binarySearch_spec (hsorted : xs.Pairwise (· < ·)) (x : α) :
    (∀ i, binarySearch xs x = .ok i → x ∈ xs) ∧
    ∀ p, binarySearch xs x = .error p → (∀ a ∈ xs.take p, a < x) ∧ ∀ a ∈ xs.drop p, x < a := by
  rcases Nat.eq_zero_or_pos xs.length with hempty | hpos
  · obtain rfl := length_eq_zero_iff.mp hempty
    refine ⟨nofun, ?_⟩
    intro p hp
    obtain rfl := Except.error.inj hp
    simp
  have hlt := searchBase_lt (x := x) (Nat.le_of_eq (Nat.zero_add xs.length)) hpos
  have habove := lt_above_searchBase (x := x) (Nat.le_of_eq (Nat.zero_add xs.length)) hsorted hpos
    (fun i hle hi => by omega)
  have hle := searchBase_le (x := x) (Nat.le_of_eq (Nat.zero_add xs.length))
    (fun _ h => absurd h (Nat.lt_irrefl 0)) hlt
  unfold binarySearch
  generalize searchBase xs x 0 xs.length _ = base at hlt habove hle ⊢
  rw [searchResult_eq hlt]
  constructor
  · intro i hi
    split at hi
    · rename_i hfound
      exact hfound ▸ getElem_mem hlt
    · cases hi
  intro p hp
  split at hp
  · cases hp
  rename_i hne
  obtain rfl := Except.error.inj hp
  split
  · rename_i hbelow
    refine ⟨?_, ?_⟩
    · intro a ha
      obtain ⟨i, hi, rfl⟩ := mem_take_iff_getElem.mp ha
      rcases Nat.eq_or_lt_of_le (show i ≤ base by omega) with rfl | hi'
      · exact hbelow
      · exact (pairwise_iff_getElem.mp hsorted _ _ _ hlt hi').trans hbelow
    · intro a ha
      obtain ⟨i, hi, rfl⟩ := mem_drop_iff_getElem.mp ha
      exact habove _ (by omega) _
  · rename_i hge
    have hgt : x < xs[base] := lt_of_le_of_ne (not_lt.mp hge) (Ne.symm hne)
    -- a later position would hold an element that is at most the key
    obtain rfl : base = 0 := by
      by_contra hbase
      exact absurd (hle (Nat.pos_of_ne_zero hbase)) (not_le.mpr hgt)
    refine ⟨by simp, ?_⟩
    intro a ha
    obtain ⟨i, hi, rfl⟩ := mem_drop_iff_getElem.mp ha
    rcases Nat.eq_zero_or_pos i with rfl | hi'
    · exact hgt
    · exact habove _ (by omega) _

/-! ## The insertion -/

/-- Insert a key where the search says, unless it is there already. -/
def insertSorted (xs : List α) (x : α) : List α :=
  match binarySearch xs x with
  | .ok _ => xs
  | .error p => xs.take p ++ x :: xs.drop p

theorem mem_insertSorted (hsorted : xs.Pairwise (· < ·)) {a : α} : a ∈ insertSorted xs x ↔ a = x ∨ a ∈ xs := by
  have hspec := binarySearch_spec hsorted x
  unfold insertSorted
  split
  · rename_i i hi
    constructor
    · exact Or.inr
    · rintro (rfl | ha)
      · exact hspec.1 i hi
      · exact ha
  · rename_i p hp
    rw [mem_append, mem_cons, or_left_comm, ← mem_append, take_append_drop]

theorem pairwise_insertSorted (hsorted : xs.Pairwise (· < ·)) (x : α) : (insertSorted xs x).Pairwise (· < ·) := by
  have hspec := binarySearch_spec hsorted x
  unfold insertSorted
  split
  · exact hsorted
  · rename_i p hp
    obtain ⟨hbelow, habove⟩ := hspec.2 p hp
    refine pairwise_append.mpr ⟨hsorted.take, ?_, ?_⟩
    · exact pairwise_cons.mpr ⟨habove, hsorted.drop⟩
    · intro a ha b hb
      rcases mem_cons.mp hb with rfl | hb
      · exact hbelow a ha
      · exact (hbelow a ha).trans (habove b hb)

/-- Machine words in their numerical order. -/
instance linearOrderUInt32 : LinearOrder UInt32 where
  le_refl := UInt32.le_refl
  le_trans _ _ _ := UInt32.le_trans
  le_antisymm _ _ := UInt32.le_antisymm
  le_total := UInt32.le_total
  lt_iff_le_not_ge a b := by
    rw [UInt32.not_le]
    exact ⟨fun h => ⟨UInt32.le_of_lt h, h⟩, And.right⟩
  toDecidableLE := inferInstance

end TensorWasm.Lib
