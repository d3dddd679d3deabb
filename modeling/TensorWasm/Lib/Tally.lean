import Mathlib.Algebra.BigOperators.Group.List.Basic
import Mathlib.Algebra.GroupWithZero.Nat
import Mathlib.Data.List.AList

/-!
# Maps with a weight

What inserting and erasing do to the entries of an association list, and to the sum of a weight over them.
-/

namespace TensorWasm.Lib

variable {κ β : Type} [DecidableEq κ] {m : AList fun _ : κ => β} {k : κ} {b c : β}

/-! ## Entries -/

theorem lookup_insert_cases {k' : κ} (h : (m.insert k b).lookup k' = some c) :
    k' = k ∧ c = b ∨ k' ≠ k ∧ m.lookup k' = some c := by
  by_cases hk : k' = k
  · subst hk
    rw [AList.lookup_insert] at h
    exact .inl ⟨rfl, (Option.some.inj h).symm⟩
  · rw [AList.lookup_insert_ne hk] at h
    exact .inr ⟨hk, h⟩

theorem lookup_erase_cases {k' : κ} (h : (m.erase k).lookup k' = some c) : k' ≠ k ∧ m.lookup k' = some c := by
  by_cases hk : k' = k
  · subst hk
    rw [AList.lookup_erase] at h
    cases h
  · rw [AList.lookup_erase_ne hk] at h
    exact ⟨hk, h⟩

theorem erase_of_lookup_none (h : m.lookup k = none) : m.erase k = m :=
  AList.ext (List.kerase_of_notMem_keys (AList.lookup_eq_none.mp h))

/-! ## Sums over the entries -/

def tally (w : κ → β → Nat) (m : AList fun _ : κ => β) : Nat := (m.entries.map fun e => w e.1 e.2).sum

variable (w : κ → β → Nat)

theorem tally_erase (h : m.lookup k = some b) : tally w m = w k b + tally w (m.erase k) := by
  have hmem : (⟨k, b⟩ : Sigma fun _ : κ => β) ∈ m.entries := AList.mem_lookup_iff.mp h
  obtain ⟨b', l₁, l₂, -, hentries, herase⟩ :=
    List.exists_of_kerase (List.mem_keys_of_mem hmem)
  have hb : b' = b := by
    refine m.nodupKeys.eq_of_mk_mem ?_ hmem
    rw [hentries]
    exact List.mem_append_right _ List.mem_cons_self
  subst hb
  show (m.entries.map fun e => w e.1 e.2).sum = w k b' + ((m.entries.kerase k).map fun e => w e.1 e.2).sum
  rw [herase, hentries]
  simp only [List.map_append, List.map_cons, List.sum_append, List.sum_cons]
  omega

theorem tally_insert (m : AList fun _ : κ => β) (k : κ) (b : β) :
    tally w (m.insert k b) = w k b + tally w (m.erase k) := rfl

theorem tally_insert_new (h : k ∉ m) : tally w (m.insert k b) = w k b + tally w m := by
  rw [tally_insert, erase_of_lookup_none (AList.lookup_eq_none.mpr h)]

/-- Another value under a key that is there. -/
theorem tally_replace (h : m.lookup k = some b) : tally w (m.insert k c) + w k b = tally w m + w k c := by
  rw [tally_insert, tally_erase w h]
  omega

theorem le_tally (h : m.lookup k = some b) : w k b ≤ tally w m := by
  rw [tally_erase w h]
  exact Nat.le_add_right _ _

/-! ## Weights -/

/-- The sum of the weights of the values of a map. -/
def weight (w : β → Nat) (m : AList fun _ : κ => β) : Nat := (m.entries.map fun e => w e.2).sum

variable (w : β → Nat)

theorem weight_erase (h : m.lookup k = some b) : weight w m = w b + weight w (m.erase k) :=
  tally_erase (fun _ => w) h

theorem weight_insert (m : AList fun _ : κ => β) (k : κ) (b : β) :
    weight w (m.insert k b) = w b + weight w (m.erase k) := rfl

theorem weight_insert_new (h : k ∉ m) : weight w (m.insert k b) = w b + weight w m :=
  tally_insert_new (fun _ => w) h

theorem weight_replace (h : m.lookup k = some b) : weight w (m.insert k c) + w b = weight w m + w c :=
  tally_replace (fun _ => w) h

theorem le_weight (h : m.lookup k = some b) : w b ≤ weight w m := le_tally (fun _ => w) h

end TensorWasm.Lib
