import Mathlib

/-!
# Inverting computations that may fail

The one fact the proofs about fallible code use: a successful bind splits into a successful first
part and a successful rest.
-/

namespace TensorWasm.Lib

open List

variable {ε α β : Type}

@[simp] theorem ok_bind (a : α) (f : α → Except ε β) : (Except.ok a >>= f) = f a := rfl

@[simp] theorem error_bind (e : ε) (f : α → Except ε β) : ((Except.error e : Except ε α) >>= f) = .error e := rfl

variable {f : α → Except ε β}

theorem bind_eq_ok {x : Except ε α} {r : β} : (x >>= f) = .ok r ↔ ∃ a, x = .ok a ∧ f a = .ok r := by
  cases x with
  | error e | ok a => simp

/-- A computation behind a guard succeeds if the guard lets it through. -/
theorem guard_eq_ok {p : Prop} [Decidable p] {e : ε} {x : Except ε α} {a : α} :
    (if p then .error e else x) = .ok a ↔ ¬ p ∧ x = .ok a := by
  split <;> simp_all

variable {xs : List α} {ys : List β}

/-- A successful `mapM` maps every element successfully, in order. -/
theorem mapM_eq_ok (h : xs.mapM f = .ok ys) : List.Forall₂ (fun x y => f x = .ok y) xs ys := by
  induction xs generalizing ys with
  | nil =>
    cases h
    exact .nil
  | cons x xs ih =>
    rw [mapM_cons] at h
    obtain ⟨y, hy, h⟩ := bind_eq_ok.mp h
    obtain ⟨zs, hzs, h⟩ := bind_eq_ok.mp h
    cases h
    exact .cons hy (ih hzs)

theorem mapM_isOk (h : ∀ x ∈ xs, ∃ y, f x = .ok y) : ∃ ys, xs.mapM f = .ok ys := by
  induction xs with
  | nil => exact ⟨[], rfl⟩
  | cons x xs ih =>
    obtain ⟨y, hy⟩ := h x mem_cons_self
    obtain ⟨ys, hys⟩ := ih fun x' hx' => h x' (mem_cons_of_mem _ hx')
    exact ⟨y :: ys, by rw [mapM_cons, hy, ok_bind, hys, ok_bind]; rfl⟩

/-- Every element of the first of two related lists has a partner in the second. -/
theorem forall₂_left {R : α → β → Prop} (h : List.Forall₂ R xs ys) {x : α} (hx : x ∈ xs) : ∃ y ∈ ys, R x y := by
  induction h with
  | nil => cases hx
  | @cons a b xs ys hab _ ih =>
    rcases mem_cons.mp hx with rfl | hx
    · exact ⟨b, mem_cons_self, hab⟩
    · obtain ⟨y, hy, hxy⟩ := ih hx
      exact ⟨y, mem_cons_of_mem _ hy, hxy⟩

theorem forall₂_right {R : α → β → Prop} (h : List.Forall₂ R xs ys) {y : β} (hy : y ∈ ys) : ∃ x ∈ xs, R x y :=
  forall₂_left (R := fun y x => R x y) h.flip hy

/-- An invariant of a fallible fold, which may speak of the elements consumed so far. -/
theorem foldlM_induct {σ : Type} {f : σ → α → Except ε σ} (P : List α → σ → Prop)
    (hstep : ∀ pre a s s', P pre s → f s a = .ok s' → P (pre ++ [a]) s') {xs pre : List α}
    {s s' : σ} (hs : P pre s) (h : xs.foldlM f s = .ok s') : P (pre ++ xs) s' := by
  induction xs generalizing pre s with
  | nil =>
    cases h
    rw [append_nil]
    exact hs
  | cons x xs ih =>
    rw [foldlM_cons] at h
    obtain ⟨s1, h1, h2⟩ := bind_eq_ok.mp h
    have := ih (hstep pre x s s1 hs h1) h2
    rwa [append_assoc] at this

/-- The elements consumed so far are the first ones of the list. -/
theorem foldlM_induct_prefix {σ : Type} {f : σ → α → Except ε σ} (P : List α → σ → Prop)
    (hstep : ∀ pre a s s', pre ++ [a] <+: xs → P pre s → f s a = .ok s' → P (pre ++ [a]) s')
    {s s' : σ} (hs : P [] s) (h : xs.foldlM f s = .ok s') : P xs s' := by
  refine foldlM_induct (fun pre s => pre <+: xs → P pre s) ?_ (fun _ => hs) h (prefix_refl _)
  intro pre a s s' hpre hf hnext
  exact hstep pre a s s' hnext (hpre ((prefix_append pre [a]).trans hnext)) hf

/-- An invariant of the state alone. -/
theorem foldlM_keeps {σ : Type} {f : σ → α → Except ε σ} {P : σ → Prop}
    (hstep : ∀ a s s', P s → f s a = .ok s' → P s') {s s' : σ} (hs : P s) (h : xs.foldlM f s = .ok s') : P s' := by
  induction xs generalizing s with
  | nil =>
    cases h
    exact hs
  | cons x xs ih =>
    rw [foldlM_cons] at h
    obtain ⟨s1, h1, h2⟩ := bind_eq_ok.mp h
    exact ih (hstep x s s1 hs h1) h2

end TensorWasm.Lib
