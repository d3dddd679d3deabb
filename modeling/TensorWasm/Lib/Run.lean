import Mathlib.Data.List.Basic

/-!
# Runs of a deterministic step function

A run folds a step function over a list of actions. An invariant is proved one step at a time;
`run_keeps` does the induction. Where a step needs a condition, `Along` says that every step of the
run meets it in the state it is taken from. A machine whose steps give answers is compared with another
by a relation between their states: `answers_related`.
-/

namespace TensorWasm.Lib

universe u v w x

variable {σ : Type u} {τ : Type v} {α : Type w} {β : Type x}

/-- The state after a list of actions. -/
def run (step : σ → α → σ) (s : σ) (actions : List α) : σ := actions.foldl step s

variable (step : σ → α → σ)

@[simp] theorem run_nil (s : σ) : run step s [] = s := rfl

@[simp] theorem run_cons (s : σ) (a : α) (actions : List α) :
    run step s (a :: actions) = run step (step s a) actions := rfl

theorem run_append (s : σ) (before after : List α) :
    run step s (before ++ after) = run step (run step s before) after := List.foldl_append

variable {step : σ → α → σ} {P : σ → Prop} {s : σ}

/-- What every step keeps, every run keeps. -/
theorem run_keeps (hstep : ∀ s a, P s → P (step s a)) (hs : P s) (actions : List α) : P (run step s actions) := by
  induction actions generalizing s with
  | nil => exact hs
  | cons a actions ih => exact ih (hstep s a hs)

/-- Every step of the run meets a condition on the state it is taken from. -/
def Along (step : σ → α → σ) (cond : σ → α → Prop) : σ → List α → Prop
  | _, [] => True
  | s, a :: actions => cond s a ∧ Along step cond (step s a) actions

variable {actions : List α} {cond : σ → α → Prop}

theorem Along.exists_of_mem (h : Along step cond s actions) {a : α} (ha : a ∈ actions) : ∃ s', cond s' a := by
  induction actions generalizing s with
  | nil => cases ha
  | cons b actions ih =>
    rcases List.mem_cons.mp ha with rfl | ha
    · exact ⟨s, h.1⟩
    · exact ih h.2 ha

/-- What every step keeps that meets the condition, a run keeps whose steps all meet it. -/
theorem Along.keeps (hstep : ∀ s a, P s → cond s a → P (step s a)) (hs : P s)
    (h : Along step cond s actions) : P (run step s actions) := by
  induction actions generalizing s with
  | nil => exact hs
  | cons a actions ih => exact ih (hstep s a hs h.1) h.2

/-- A property holds in every state of the run, the first and the last included. -/
def Throughout (step : σ → α → σ) (P : σ → Prop) : σ → List α → Prop
  | s, [] => P s
  | s, a :: actions => P s ∧ Throughout step P (step s a) actions

theorem Throughout.mono {P Q : σ → Prop} (hPQ : ∀ s, P s → Q s) (h : Throughout step P s actions) :
    Throughout step Q s actions := by
  induction actions generalizing s with
  | nil => exact hPQ s h
  | cons a actions ih => exact ⟨hPQ s h.1, ih h.2⟩

/-- Under a condition on steps a property is kept, and each step taken from a state with the property does
what is said of it. -/
theorem Along.keeps_and {cond does : σ → α → Prop} (hstep : ∀ s a, P s → cond s a → P (step s a) ∧ does s a)
    (hs : P s) (h : Along step cond s actions) : Throughout step P s actions ∧ Along step does s actions := by
  induction actions generalizing s with
  | nil => exact ⟨hs, trivial⟩
  | cons a actions ih =>
    obtain ⟨hnext, hdoes⟩ := hstep s a hs h.1
    obtain ⟨hrest, hall⟩ := ih hnext h.2
    exact ⟨⟨hs, hrest⟩, hdoes, hall⟩

/-- When a condition on steps is exactly what keeps a property, it is exactly what keeps it
throughout a run. -/
theorem throughout_iff_along (hstep : ∀ s a, P s → (P (step s a) ↔ cond s a)) (hs : P s) (actions : List α) :
    Throughout step P s actions ↔ Along step cond s actions := by
  induction actions generalizing s with
  | nil => exact ⟨fun _ => trivial, fun _ => hs⟩
  | cons a actions ih =>
    constructor
    · rintro ⟨-, hrest⟩
      have hnext : P (step s a) := by
        cases actions with
        | nil => exact hrest
        | cons b bs => exact hrest.1
      exact ⟨(hstep s a hs).mp hnext, (ih hnext).mp hrest⟩
    · rintro ⟨hcond, hrest⟩
      exact ⟨hs, (ih ((hstep s a hs).mpr hcond)).mpr hrest⟩

/-! ## Machines that answer -/

/-- The answers to a list of actions. -/
def answers (step : σ → α → β × σ) : σ → List α → List β
  | _, [] => []
  | s, a :: actions => (step s a).1 :: answers step (step s a).2 actions

/-- If related states give related answers and stay related, then so do whole runs. -/
theorem answers_related {f : σ → α → β × σ} {g : τ → α → β × τ} {R : σ → τ → Prop} {same : β → β → Prop}
    (hstep : ∀ s t a, R s t → cond s a → same (f s a).1 (g t a).1 ∧ R (f s a).2 (g t a).2) {t : τ} (h : R s t)
    (hcond : Along (fun s a => (f s a).2) cond s actions) :
    List.Forall₂ same (answers f s actions) (answers g t actions) ∧
      R (run (fun s a => (f s a).2) s actions) (run (fun t a => (g t a).2) t actions) := by
  induction actions generalizing s t with
  | nil => exact ⟨.nil, h⟩
  | cons a actions ih =>
    obtain ⟨hsame, hnext⟩ := hstep s t a h hcond.1
    obtain ⟨hanswers, hend⟩ := ih hnext hcond.2
    exact ⟨.cons hsame hanswers, hend⟩

/-- An entry of a list with one more at its end. -/
theorem getElem?_concat {l : List α} {a x : α} {k : Nat} (h : (l ++ [a])[k]? = some x) :
    l[k]? = some x ∨ k = l.length ∧ x = a := by
  rw [List.getElem?_append] at h
  split at h
  · exact .inl h
  · obtain ⟨hk, rfl⟩ := List.getElem?_eq_some_iff.mp h
    rw [List.length_singleton] at hk
    exact .inr ⟨by omega, by simp⟩

end TensorWasm.Lib
