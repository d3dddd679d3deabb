import Mathlib.Computability.StateTransition

/-!
# Simulations that run to the end

A system is a step function with optional results, and its runs are Mathlib's `Reaches`. A ranked
relation between two systems that some steps of both keep, while the rank falls, carries a run of one
and a run of the other to a pair of states they end in. What a deterministic run ends in is unique.
-/

namespace TensorWasm.Lib

open StateTransition

variable {σ τ : Type}

variable {step : σ → Option σ}

theorem reaches_step {a b : σ} (h : step a = some b) : Reaches step a b :=
  .single h

/-- The state after `n` steps. -/
def stepN (step : σ → Option σ) : Nat → σ → Option σ
  | 0, a => some a
  | n + 1, a => (step a).bind (stepN step n)

theorem reaches_stepN {n : Nat} {a b : σ} (h : stepN step n a = some b) : Reaches step a b := by
  induction n generalizing a with
  | zero =>
    cases h
    exact .refl
  | succ n ih =>
    obtain ⟨c, hc, h⟩ := Option.bind_eq_some_iff.mp h
    exact (reaches_step hc).trans (ih h)

/-- A run has not moved, or it has taken the first step. -/
theorem reaches_head {a b : σ} (h : Reaches step a b) : b = a ∨ ∃ c, step a = some c ∧ Reaches step c b := by
  rcases Relation.ReflTransGen.cases_head h with heq | ⟨c, hc, hrest⟩
  · exact .inl heq.symm
  · exact .inr ⟨c, hc, hrest⟩

/-- If related states lead to final states, or to related states of a smaller rank, then related
states lead to final states. -/
theorem simulates_to_end {f : σ → Option σ} {g : τ → Option τ} {related : Nat → σ → τ → Prop}
    {final : σ → τ → Prop}
    (hstep : ∀ n a b, related n a b → ∃ a' b', Reaches f a a' ∧ Reaches g b b' ∧
      (final a' b' ∨ ∃ n' < n, related n' a' b')) (n : Nat) {a : σ} {b : τ} (h : related n a b) :
    ∃ a' b', Reaches f a a' ∧ Reaches g b b' ∧ final a' b' := by
  induction n using Nat.strong_induction_on generalizing a b with
  | _ n ih =>
    obtain ⟨a', b', ha, hb, hend | ⟨n', hn, hrel⟩⟩ := hstep n a b h
    · exact ⟨a', b', ha, hb, hend⟩
    · obtain ⟨a'', b'', ha', hb', hend⟩ := ih n' hn hrel
      exact ⟨a'', b'', ha.trans ha', hb.trans hb', hend⟩

/-- Two runs from one state that cannot go on have ended in the same state. -/
theorem reaches_end_unique {a b c : σ} (hb : Reaches step a b) (hbend : step b = none)
    (hc : Reaches step a c) (hcend : step c = none) : b = c :=
  Part.mem_unique (mem_eval.mpr ⟨hb, hbend⟩) (mem_eval.mpr ⟨hc, hcend⟩)

end TensorWasm.Lib
