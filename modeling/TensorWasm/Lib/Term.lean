import Mathlib

/-!
# Terms over uninterpreted operations, and separating them in a small carrier

A pass that only moves values around is correct for *every* meaning of the arithmetic it moves, or
it is wrong for one. `Term` is the free algebra that makes the first half a syntactic question: two
terms agree under all interpretations when they are equal. The converse is the theorem of this
file, `exists_interp_injOn`: in any carrier with at least as many elements as the terms at hand
have subterms, some interpretation tells them all apart. The bound is what makes it usable at a
machine word, where the free algebra itself does not embed.
-/

namespace TensorWasm.Lib

open Finset (card_union_le mem_singleton mem_union)

/-- Terms over binary symbols `β`, ternary symbols `τ` and numbered leaves. -/
inductive Term (β τ : Type) where
  | leaf (i : Nat)
  | bin (o : β) (a b : Term β τ)
  | ter (o : τ) (a b c : Term β τ)
  deriving DecidableEq

/-- An interpretation of the symbols in a carrier. -/
structure Interp (β τ V : Type) where
  bin : β → V → V → V
  ter : τ → V → V → V → V

variable {β τ V : Type}

namespace Term

instance : Nonempty (Term β τ) := ⟨.leaf 0⟩

/-- The free interpretation: every symbol builds its own term. -/
def free (β τ : Type) : Interp β τ (Term β τ) where
  bin := .bin
  ter := .ter

def eval (A : Interp β τ V) (ρ : Nat → V) : Term β τ → V
  | .leaf i => ρ i
  | .bin o a b => A.bin o (a.eval A ρ) (b.eval A ρ)
  | .ter o a b c => A.ter o (a.eval A ρ) (b.eval A ρ) (c.eval A ρ)

/-- The leaves, left to right. -/
def leaves : Term β τ → List Nat
  | .leaf i => [i]
  | .bin _ a b => a.leaves ++ b.leaves
  | .ter _ a b c => a.leaves ++ b.leaves ++ c.leaves

/-- The leftmost leaf. -/
def first : Term β τ → Nat
  | .leaf i => i
  | .bin _ a _ => a.first
  | .ter _ a _ _ => a.first

/-- The number of nodes. -/
def size : Term β τ → Nat
  | .leaf _ => 1
  | .bin _ a b => 1 + a.size + b.size
  | .ter _ a b c => 1 + a.size + b.size + c.size

theorem first_mem_leaves (t : Term β τ) : t.first ∈ t.leaves := by
  induction t with
  | leaf i => simp [first, leaves]
  | bin o a b iha ihb | ter o a b c iha ihb ihc => simp [first, leaves, iha]

variable [DecidableEq β] [DecidableEq τ]

/-- The subterms, the term itself included. -/
def subterms : Term β τ → Finset (Term β τ)
  | .leaf i => {.leaf i}
  | .bin o a b => {.bin o a b} ∪ a.subterms ∪ b.subterms
  | .ter o a b c => {.ter o a b c} ∪ a.subterms ∪ b.subterms ∪ c.subterms

theorem self_mem_subterms (t : Term β τ) : t ∈ t.subterms := by
  cases t <;> simp [subterms]

theorem card_subterms_le (t : Term β τ) : t.subterms.card ≤ t.size := by
  induction t with
  | leaf i => simp [subterms, size]
  | bin o a b iha ihb =>
    have h1 := card_union_le ({.bin o a b} ∪ a.subterms) b.subterms
    have h2 := card_union_le {Term.bin o a b} a.subterms
    simp only [subterms, size, Finset.card_singleton] at *
    omega
  | ter o a b c iha ihb ihc =>
    have h1 := card_union_le ({.ter o a b c} ∪ a.subterms ∪ b.subterms) c.subterms
    have h2 := card_union_le ({.ter o a b c} ∪ a.subterms) b.subterms
    have h3 := card_union_le {Term.ter o a b c} a.subterms
    simp only [subterms, size, Finset.card_singleton] at *
    omega

/-- Subterms of a subterm are subterms. -/
theorem subterms_trans {s t : Term β τ} (h : s ∈ t.subterms) : s.subterms ⊆ t.subterms := by
  induction t with
  | leaf i =>
    simp only [subterms, mem_singleton] at h
    rw [h]
  | bin o a b iha ihb =>
    simp only [subterms, mem_union, mem_singleton] at h
    rcases h with (rfl | h) | h
    · exact Finset.Subset.refl _
    · intro x hx
      simp only [subterms, mem_union]
      exact Or.inl (Or.inr (iha h hx))
    · intro x hx
      simp only [subterms, mem_union]
      exact Or.inr (ihb h hx)
  | ter o a b c iha ihb ihc =>
    simp only [subterms, mem_union, mem_singleton] at h
    rcases h with ((rfl | h) | h) | h
    · exact Finset.Subset.refl _
    · intro x hx
      simp only [subterms, mem_union]
      exact Or.inl (Or.inl (Or.inr (iha h hx)))
    · intro x hx
      simp only [subterms, mem_union]
      exact Or.inl (Or.inr (ihb h hx))
    · intro x hx
      simp only [subterms, mem_union]
      exact Or.inr (ihc h hx)

/-! ## Separation -/

/-- Closed under taking subterms. -/
def SubtermClosed (T : Finset (Term β τ)) : Prop := ∀ t ∈ T, t.subterms ⊆ T

theorem subtermClosed_union_subterms (s t : Term β τ) : SubtermClosed (s.subterms ∪ t.subterms) := by
  intro u hu x hx
  rcases mem_union.mp hu with h | h
  · exact Finset.mem_union_left _ (subterms_trans h hx)
  · exact Finset.mem_union_right _ (subterms_trans h hx)

/-- Compute on codes by decoding, building the term, and coding it again. -/
def coded (code : Term β τ → V) (decode : V → Term β τ) : Interp β τ V where
  bin o x y := code (.bin o (decode x) (decode y))
  ter o x y z := code (.ter o (decode x) (decode y) (decode z))

/-- On a subterm-closed set that `decode` recovers, evaluating is coding. -/
theorem eval_coded {T : Finset (Term β τ)} (hT : SubtermClosed T) {code : Term β τ → V}
    {decode : V → Term β τ} (hdec : ∀ t ∈ T, decode (code t) = t) :
    ∀ t ∈ T, t.eval (coded code decode) (fun i => code (.leaf i)) = code t := by
  intro t
  induction t with
  | leaf i => intro _; rfl
  | bin o a b iha ihb =>
    intro ht
    have ha : a ∈ T := hT _ ht (by simp [subterms, self_mem_subterms])
    have hb : b ∈ T := hT _ ht (by simp [subterms, self_mem_subterms])
    show code (.bin o (decode (a.eval _ _)) (decode (b.eval _ _))) = _
    rw [iha ha, ihb hb, hdec a ha, hdec b hb]
  | ter o a b c iha ihb ihc =>
    intro ht
    have ha : a ∈ T := hT _ ht (by simp [subterms, self_mem_subterms])
    have hb : b ∈ T := hT _ ht (by simp [subterms, self_mem_subterms])
    have hc : c ∈ T := hT _ ht (by simp [subterms, self_mem_subterms])
    show code (.ter o (decode (a.eval _ _)) (decode (b.eval _ _)) (decode (c.eval _ _))) = _
    rw [iha ha, ihb hb, ihc hc, hdec a ha, hdec b hb, hdec c hc]

/-- **Separation.** A carrier at least as large as a subterm-closed set of terms has an
interpretation under which distinct terms of the set have distinct values. -/
theorem exists_interp_injOn [Fintype V] [Nonempty V] {T : Finset (Term β τ)} (hT : SubtermClosed T)
    (hcard : T.card ≤ Fintype.card V) : ∃ (A : Interp β τ V) (ρ : Nat → V), Set.InjOn (eval A ρ) T := by
  classical
  have hemb : Nonempty (T ↪ V) :=
    Function.Embedding.nonempty_of_card_le (by simpa using hcard)
  obtain ⟨f⟩ := hemb
  let code : Term β τ → V := fun t => if h : t ∈ T then f ⟨t, h⟩ else Classical.arbitrary V
  have hinj : Set.InjOn code T := by
    intro s hs t ht hst
    have hs' : s ∈ T := hs
    have ht' : t ∈ T := ht
    simp only [code, dif_pos hs', dif_pos ht'] at hst
    exact congrArg Subtype.val (f.injective hst)
  let decode : V → Term β τ := Function.invFunOn code T
  have hdec : ∀ t ∈ T, decode (code t) = t := fun t ht => hinj.leftInvOn_invFunOn ht
  refine ⟨coded code decode, fun i => code (.leaf i), ?_⟩
  intro s hs t ht hst
  rw [eval_coded hT hdec s hs, eval_coded hT hdec t ht] at hst
  exact hinj hs ht hst

/-- Two different terms have different values somewhere, as soon as the carrier has room for both
their subterm sets. -/
theorem exists_interp_ne [Fintype V] [Nonempty V] {s t : Term β τ} (hne : s ≠ t)
    (hcard : s.size + t.size ≤ Fintype.card V) : ∃ (A : Interp β τ V) (ρ : Nat → V), s.eval A ρ ≠ t.eval A ρ := by
  have hle : (s.subterms ∪ t.subterms).card ≤ Fintype.card V :=
    calc (s.subterms ∪ t.subterms).card
        ≤ s.subterms.card + t.subterms.card := card_union_le _ _
      _ ≤ s.size + t.size := Nat.add_le_add (card_subterms_le s) (card_subterms_le t)
      _ ≤ Fintype.card V := hcard
  obtain ⟨A, ρ, hinj⟩ := exists_interp_injOn (subtermClosed_union_subterms s t) hle
  refine ⟨A, ρ, fun heq => hne (hinj ?_ ?_ heq)⟩
  · exact Finset.mem_coe.mpr (Finset.mem_union_left _ (self_mem_subterms s))
  · exact Finset.mem_coe.mpr (Finset.mem_union_right _ (self_mem_subterms t))

end Term

end TensorWasm.Lib
