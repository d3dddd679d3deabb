import Mathlib.Data.Set.Function
import Mathlib.Data.List.Basic
import Mathlib.Logic.Relation

/-!
# Paths and dominance in a control-flow graph

A graph is an edge relation on an arbitrary type of nodes. `d` dominates `u` when every path from the
entry to `u` passes through `d`, so every node dominates an unreachable one. Dominance is carried
over by a renaming of the nodes that keeps the edges in both directions.
-/

namespace TensorWasm.Lib

variable {α β : Type}

/-- A walk along the edges, with the list of the nodes it visits. It grows at the end, as a run
does. -/
inductive Path (E : α → α → Prop) (entry : α) : α → List α → Prop
  | start : Path E entry entry [entry]
  | step {b c : α} {p : List α} : Path E entry b p → E b c → Path E entry c (p ++ [c])

/-- Every path from the entry to `u` visits `d`. -/
def Dominates (E : α → α → Prop) (entry d u : α) : Prop := ∀ p, Path E entry u p → d ∈ p

variable {E : α → α → Prop} {p : List α}

theorem Path.end_mem {entry u : α} (h : Path E entry u p) : u ∈ p := by
  cases h with
  | start => exact List.mem_singleton_self _
  | step hp he => exact List.mem_append_right _ (List.mem_singleton_self _)

theorem dominates_self (E : α → α → Prop) (entry u : α) : Dominates E entry u u :=
  fun _ hp => hp.end_mem

theorem Path.entry_mem {entry u : α} (h : Path E entry u p) : entry ∈ p := by
  induction h with
  | start => exact List.mem_singleton_self _
  | step _ _ ih => exact List.mem_append_left _ ih

theorem dominates_entry (E : α → α → Prop) (entry u : α) : Dominates E entry entry u :=
  fun _ hp => hp.entry_mem

/-- A path stays in every set of nodes that holds the entry and that no edge leaves. -/
theorem Path.subset {entry u : α} {nodes : Set α} (hentry : entry ∈ nodes)
    (hclosed : ∀ a b, a ∈ nodes → E a b → b ∈ nodes) (h : Path E entry u p) : u ∈ nodes ∧ ∀ a ∈ p, a ∈ nodes := by
  induction h with
  | start =>
    refine ⟨hentry, ?_⟩
    intro a ha
    rwa [List.mem_singleton.mp ha]
  | @step b c p _ he ih =>
    have hc := hclosed b c ih.1 he
    refine ⟨hc, ?_⟩
    intro a ha
    cases List.mem_append.mp ha with
    | inl ha => exact ih.2 a ha
    | inr ha => rwa [List.mem_singleton.mp ha]

section Renaming

variable {E : α → α → Prop} {E' : β → β → Prop} {φ : α → β} {nodes : Set α} {entry : α}

theorem Path.map (hentry : entry ∈ nodes) (hclosed : ∀ a b, a ∈ nodes → E a b → b ∈ nodes)
    (hedge : ∀ a b, a ∈ nodes → E a b → E' (φ a) (φ b)) {u : α}
    (h : Path E entry u p) : Path E' (φ entry) (φ u) (p.map φ) := by
  induction h with
  | start => exact .start
  | @step b c p hp he ih =>
    rw [List.map_append]
    have hb := (hp.subset hentry hclosed).1
    exact .step ih (hedge b c hb he)

/-- A path of the renamed graph is the renaming of a path. -/
theorem Path.lift (hentry : entry ∈ nodes) (hclosed : ∀ a b, a ∈ nodes → E a b → b ∈ nodes)
    (hback : ∀ a y, a ∈ nodes → E' (φ a) y → ∃ b, y = φ b ∧ E a b) {y : β} {q : List β}
    (h : Path E' (φ entry) y q) : ∃ u p, y = φ u ∧ q = p.map φ ∧ Path E entry u p := by
  induction h with
  | start => exact ⟨entry, [entry], rfl, rfl, .start⟩
  | step _ he ih =>
    obtain ⟨b, p, rfl, rfl, hp⟩ := ih
    obtain ⟨c, rfl, hbc⟩ := hback b _ (hp.subset hentry hclosed).1 he
    exact ⟨c, p ++ [c], rfl, by simp, .step hp hbc⟩

/-- A renaming that is one-to-one on the nodes and keeps the edges both ways keeps dominance. -/
theorem dominates_map_iff (hentry : entry ∈ nodes) (hclosed : ∀ a b, a ∈ nodes → E a b → b ∈ nodes)
    (hinj : Set.InjOn φ nodes) (hedge : ∀ a b, a ∈ nodes → E a b → E' (φ a) (φ b))
    (hback : ∀ a y, a ∈ nodes → E' (φ a) y → ∃ b, y = φ b ∧ E a b) {d u : α} (hd : d ∈ nodes) (hu : u ∈ nodes) :
    Dominates E' (φ entry) (φ d) (φ u) ↔ Dominates E entry d u := by
  constructor
  · intro h p hp
    obtain ⟨a, ha, hφ⟩ := List.mem_map.mp (h _ (hp.map hentry hclosed hedge))
    rwa [← hinj ((hp.subset hentry hclosed).2 a ha) hd hφ]
  · intro h q hq
    obtain ⟨u', p, hu', rfl, hp⟩ := Path.lift hentry hclosed hback hq
    obtain rfl := hinj hu (hp.subset hentry hclosed).1 hu'
    exact List.mem_map_of_mem (h p hp)

end Renaming

/-! ## Cycles -/

/-- No walk of at least one edge comes back to where it started. -/
def Acyclic (E : α → α → Prop) : Prop := ∀ a, ¬ Relation.TransGen E a a

theorem acyclic_of_rank (rank : α → Nat) (h : ∀ a b, E a b → rank a < rank b) : Acyclic E := by
  intro a hcycle
  have hrise : ∀ b, Relation.TransGen E a b → rank a < rank b := by
    intro b hb
    induction hb with
    | single hab => exact h a _ hab
    | tail _ hbc ih => exact ih.trans (h _ _ hbc)
  exact Nat.lt_irrefl _ (hrise a hcycle)

end TensorWasm.Lib
