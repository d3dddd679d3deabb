import Mathlib.Order.Defs.Unbundled

/-!
# Computations that may give up and keep what they changed

`Attempt σ α` reads and writes a state and may give up. Unlike in `StateT σ Option`, giving up does
not undo: the state stays as it was when the computation stopped, as it does for a function that
takes a mutable reference and returns an option.
-/

namespace TensorWasm.Lib

variable {σ α β : Type}

def Attempt (σ α : Type) : Type := σ → Option α × σ

namespace Attempt

/-- The rest of a computation, once the first part has ended. -/
def andThen (f : α → Attempt σ β) : Option α × σ → Option β × σ
  | (none, s) => (none, s)
  | (some a, s) => f a s

instance : Monad (Attempt σ) where
  pure a := fun s => (some a, s)
  bind x f := fun s => andThen f (x s)

/-- An option read without touching the state. -/
def ofOption (o : Option α) : Attempt σ α := fun s => (o, s)

theorem pure_run (a : α) (s : σ) : (pure a : Attempt σ α) s = (some a, s) := rfl

theorem bind_run (x : Attempt σ α) (f : α → Attempt σ β) (s : σ) : (x >>= f) s = andThen f (x s) := rfl

theorem pure_eq_some {a r : α} {s s' : σ} : (pure a : Attempt σ α) s = (some r, s') ↔ a = r ∧ s = s' := by
  simp [pure_run]

variable {f : α → Attempt σ β} {x : Attempt σ α}

/-- A bind that succeeds splits into a first part and a rest that succeed. -/
theorem bind_eq_some {s s' : σ} {r : β} :
    (x >>= f) s = (some r, s') ↔ ∃ a s₁, x s = (some a, s₁) ∧ f a s₁ = (some r, s') := by
  rw [bind_run]
  cases hx : x s with
  | mk o s₁ =>
    cases o with
    | none => simp [andThen]
    | some a =>
      constructor
      · intro h
        exact ⟨a, s₁, rfl, h⟩
      · rintro ⟨a', s₁', hpair, h⟩
        cases hpair
        exact h

/-- An option at the head of a computation that succeeds. -/
theorem ofOption_bind {o : Option α} {s s' : σ} {r : β} (h : (ofOption o >>= f) s = (some r, s')) :
    ∃ a, o = some a ∧ f a s = (some r, s') := by
  obtain ⟨a, s₁, ha, h⟩ := bind_eq_some.mp h
  cases ha
  exact ⟨a, rfl, h⟩

/-- Whether it succeeds or gives up, the computation moves the state along `R`. -/
def Moves (R : σ → σ → Prop) (x : Attempt σ α) : Prop := ∀ s, R s (x s).2

variable {R : σ → σ → Prop}

theorem moves_pure [Std.Refl R] (a : α) : Moves R (pure a : Attempt σ α) := fun s => Std.Refl.refl s

theorem moves_ofOption [Std.Refl R] (o : Option α) : Moves R (ofOption o : Attempt σ α) := fun s => Std.Refl.refl s

theorem Moves.bind [IsTrans σ R] (hx : Moves R x) (hf : ∀ a, Moves R (f a)) : Moves R (x >>= f) := by
  intro s
  rw [bind_run]
  have hfirst := hx s
  revert hfirst
  cases hrun : x s with
  | mk o s₁ =>
    intro hfirst
    cases o with
    | none => exact hfirst
    | some a => exact IsTrans.trans _ _ _ hfirst (hf a s₁)

/-- When it gives up, the computation has moved the state along `R`. -/
def GivesUp (R : σ → σ → Prop) (x : Attempt σ α) : Prop := ∀ s, (x s).1 = none → R s (x s).2

theorem GivesUp.bind [IsTrans σ R] (hx : Moves R x) (hf : ∀ a, GivesUp R (f a)) : GivesUp R (x >>= f) := by
  intro s
  rw [bind_run]
  have hfirst := hx s
  revert hfirst
  cases hrun : x s with
  | mk o s₁ =>
    intro hfirst hnone
    cases o with
    | none => exact hfirst
    | some a => exact IsTrans.trans _ _ _ hfirst (hf a s₁ hnone)

end Attempt

end TensorWasm.Lib
