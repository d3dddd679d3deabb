import Mathlib.Algebra.BigOperators.Group.Finset.Basic
import Mathlib.Tactic.Abel
import TensorWasm.Lib.Run

/-!
# Retry loops on one atomic cell

Any number of calls race for a cell. Each loads it, works out from the value it has seen either a refusal
or a new value, and tries to exchange the two. An exchange fails if the cell has changed, and may fail
without a reason; the call then goes on with the value it was shown. A move says which call takes its next
atomic step, and whether an exchange of that step is to fail without a reason.

Whatever the order of the moves, the cell changes by exchanges only, so that what every exchange keeps
every run keeps (`Race.run_keeps`), and the cell is the sum of what the finished calls have added
(`Race.run_balance`).
-/

namespace TensorWasm.Lib

variable {ι σ ρ : Type} [DecidableEq ι]

/-- What a call makes of the value it has seen. -/
inductive Decision (σ ρ : Type)
  | refuse (answer : ρ)
  | exchange (next : σ) (answer : ρ)
  deriving DecidableEq

def Decision.answer : Decision σ ρ → ρ
  | .refuse answer => answer
  | .exchange _ answer => answer

/-- Where a call stands; at its end, the value of its last decision. -/
inductive Phase (σ : Type)
  | ready
  | holding (seen : σ)
  | ended (seen : σ)
  deriving DecidableEq

structure Race (ι σ : Type) where
  cell : σ
  phase : ι → Phase σ

namespace Race

/-- No call has begun. -/
def start (cell : σ) : Race ι σ := ⟨cell, fun _ => .ready⟩

def setPhase (r : Race ι σ) (i : ι) (p : Phase σ) : Race ι σ := { r with phase := Function.update r.phase i p }

@[simp] theorem setPhase_self (r : Race ι σ) (i : ι) (p : Phase σ) : (r.setPhase i p).phase i = p :=
  Function.update_self _ _ _

theorem setPhase_of_ne (r : Race ι σ) {i j : ι} (h : j ≠ i) (p : Phase σ) :
    (r.setPhase i p).phase j = r.phase j := Function.update_of_ne h _ _

variable [DecidableEq σ]

/-- One atomic step of the call `move.1`. -/
def step (decision : ι → σ → Decision σ ρ) (r : Race ι σ) (move : ι × Bool) : Race ι σ :=
  match r.phase move.1 with
  | .ready => r.setPhase move.1 (.holding r.cell)
  | .holding seen =>
    match decision move.1 seen with
    | .refuse _ => r.setPhase move.1 (.ended seen)
    | .exchange next _ =>
      if r.cell = seen ∧ move.2 = false then { r.setPhase move.1 (.ended seen) with cell := next }
      else r.setPhase move.1 (.holding r.cell)
  | .ended _ => r

variable {decision : ι → σ → Decision σ ρ} {r : Race ι σ} {move : ι × Bool}

/-- A step is an exchange that succeeds, or a refusal, or leaves the call under way, or does nothing. -/
theorem step_cases (decision : ι → σ → Decision σ ρ) (r : Race ι σ) (move : ι × Bool) :
    (∃ next answer, r.phase move.1 = .holding r.cell ∧
        decision move.1 r.cell = .exchange next answer ∧
        r.step decision move = { r.setPhase move.1 (.ended r.cell) with cell := next }) ∨
      (∃ seen answer, r.phase move.1 = .holding seen ∧ decision move.1 seen = .refuse answer ∧
        r.step decision move = r.setPhase move.1 (.ended seen)) ∨
      (∀ seen, r.phase move.1 ≠ .ended seen) ∧ r.step decision move = r.setPhase move.1 (.holding r.cell) ∨
      (∃ seen, r.phase move.1 = .ended seen) ∧ r.step decision move = r := by
  cases hphase : r.phase move.1 with
  | ready =>
    refine .inr (.inr (.inl ⟨fun _ h => (nomatch h), ?_⟩))
    simp only [step, hphase]
  | holding seen =>
    cases hdecision : decision move.1 seen with
    | refuse answer =>
      refine .inr (.inl ⟨seen, answer, rfl, hdecision, ?_⟩)
      simp only [step, hphase, hdecision]
    | exchange next answer =>
      by_cases hwins : r.cell = seen ∧ move.2 = false
      · obtain ⟨rfl, hreason⟩ := hwins
        refine .inl ⟨next, answer, rfl, hdecision, ?_⟩
        simp only [step, hphase, hdecision, hreason, and_self, if_true]
      · refine .inr (.inr (.inl ⟨fun _ h => (nomatch h), ?_⟩))
        simp only [step, hphase, hdecision, if_neg hwins]
  | ended seen =>
    refine .inr (.inr (.inr ⟨⟨seen, rfl⟩, ?_⟩))
    simp only [step, hphase]

variable {P : σ → Prop} (hexchange : ∀ i seen next answer, decision i seen = .exchange next answer → P seen → P next)

include hexchange

/-- What every exchange keeps, every step keeps. -/
theorem step_keeps (hr : P r.cell) : P (r.step decision move).cell := by
  rcases step_cases decision r move with ⟨next, answer, -, hdecision, hstep⟩ | ⟨_, _, -, -, hstep⟩ |
    ⟨-, hstep⟩ | ⟨-, hstep⟩
  · rw [hstep]
    exact hexchange move.1 r.cell next answer hdecision hr
  · rw [hstep]
    exact hr
  · rw [hstep]
    exact hr
  · rw [hstep]
    exact hr

theorem run_keeps (hr : P r.cell) (moves : List (ι × Bool)) : P (run (step decision) r moves).cell :=
  Lib.run_keeps (P := fun r : Race ι σ => P r.cell) (fun _ _ => step_keeps hexchange) hr moves

omit hexchange

/-- A call that has ended stays where it is. -/
theorem ended_run {i : ι} {seen : σ} (h : r.phase i = .ended seen) (moves : List (ι × Bool)) :
    (run (step decision) r moves).phase i = .ended seen := by
  refine Lib.run_keeps (P := fun r : Race ι σ => r.phase i = .ended seen) ?_ h moves
  intro r move h
  rcases step_cases decision r move with ⟨_, _, hphase, -, hstep⟩ | ⟨_, _, hphase, -, hstep⟩ |
    ⟨hphase, hstep⟩ | ⟨-, hstep⟩
  · have hne : i ≠ move.1 := by
      rintro rfl
      exact nomatch h.symm.trans hphase
    rw [hstep]
    exact (setPhase_of_ne r hne _).trans h
  · have hne : i ≠ move.1 := by
      rintro rfl
      exact nomatch h.symm.trans hphase
    rw [hstep]
    exact (setPhase_of_ne r hne _).trans h
  · have hne : i ≠ move.1 := by
      rintro rfl
      exact hphase seen h
    rw [hstep]
    exact (setPhase_of_ne r hne _).trans h
  · rw [hstep]
    exact h

/-- A call that is refused in the end has not changed the cell in any of its steps. -/
theorem refused_leaves_cell {moves before after : List (ι × Bool)} {i : ι} {lost : Bool} {seen : σ} {answer : ρ}
    (hmoves : moves = before ++ (i, lost) :: after) (hended : (run (step decision) r moves).phase i = .ended seen)
    (hrefused : decision i seen = .refuse answer) :
    (run (step decision) r (before ++ [(i, lost)])).cell = (run (step decision) r before).cell := by
  rw [run_append, run_cons, run_nil]
  rcases step_cases decision (run (step decision) r before) (i, lost) with
    ⟨next, other, -, hdecision, hstep⟩ | ⟨_, _, -, -, hstep⟩ | ⟨-, hstep⟩ | ⟨-, hstep⟩
  · -- an exchange would have ended the call with another decision
    exfalso
    rw [hmoves, run_append, run_cons] at hended
    have hphase : ((run (step decision) r before).step decision (i, lost)).phase i =
        .ended (run (step decision) r before).cell := by
      rw [hstep]
      exact setPhase_self _ _ _
    have hsame := Phase.ended.inj ((ended_run hphase after).symm.trans hended)
    rw [← hsame] at hrefused
    exact nomatch hdecision.symm.trans hrefused
  · rw [hstep]
    rfl
  · rw [hstep]
    rfl
  · rw [hstep]

omit [DecidableEq ι] [DecidableEq σ] in
/-- What a call has returned, if it has. -/
def answer (decision : ι → σ → Decision σ ρ) (r : Race ι σ) (i : ι) : Option ρ :=
  match r.phase i with
  | .ended seen => some (decision i seen).answer
  | _ => none

section Balance

variable {A : Type} [AddCommGroup A]

omit [DecidableEq ι] [DecidableEq σ] in
/-- What a call has added to the value of the cell so far. -/
def added (decision : ι → σ → Decision σ ρ) (value : σ → A) (i : ι) : Phase σ → A
  | .ended seen =>
    match decision i seen with
    | .refuse _ => 0
    | .exchange next _ => value next - value seen
  | _ => 0

variable [Fintype ι]

omit [DecidableEq σ] in
theorem sum_setPhase (f : ι → Phase σ → A) (r : Race ι σ) (i : ι) (p : Phase σ) :
    ∑ j, f j ((r.setPhase i p).phase j) = ∑ j, f j (r.phase j) + (f i p - f i (r.phase i)) := by
  have hsame : ∀ j ∈ Finset.univ.erase i, f j ((r.setPhase i p).phase j) = f j (r.phase j) := by
    intro j hj
    rw [setPhase_of_ne r (Finset.ne_of_mem_erase hj)]
  calc ∑ j, f j ((r.setPhase i p).phase j)
      = f i p + ∑ j ∈ Finset.univ.erase i, f j (r.phase j) := by
        rw [← Finset.add_sum_erase _ _ (Finset.mem_univ i), Finset.sum_congr rfl hsame, setPhase_self]
    _ = f i (r.phase i) + ∑ j ∈ Finset.univ.erase i, f j (r.phase j) + (f i p - f i (r.phase i)) := by
        abel
    _ = ∑ j, f j (r.phase j) + (f i p - f i (r.phase i)) := by
        rw [Finset.add_sum_erase _ (fun j => f j (r.phase j)) (Finset.mem_univ i)]

/-- The books balance after every step if they did before. -/
theorem step_balance {value : σ → A} {first : A}
    (h : value r.cell = first + ∑ i, added decision value i (r.phase i)) :
    value (r.step decision move).cell = first + ∑ i, added decision value i ((r.step decision move).phase i) := by
  rcases step_cases decision r move with ⟨next, answer, hphase, hdecision, hstep⟩ |
    ⟨seen, answer, hphase, hdecision, hstep⟩ | ⟨hphase, hstep⟩ | ⟨-, hstep⟩
  · rw [hstep]
    change value next = first + ∑ i, added decision value i ((r.setPhase move.1 (.ended r.cell)).phase i)
    rw [sum_setPhase, ← add_assoc, ← h, hphase]
    simp only [added, hdecision]
    abel
  · rw [hstep, sum_setPhase, hphase]
    simp only [added, hdecision, sub_zero, add_zero]
    exact h
  · have hnothing : added decision value move.1 (r.phase move.1) = 0 := by
      cases hcase : r.phase move.1 with
      | ready | holding seen => rfl
      | ended seen => exact absurd hcase (hphase seen)
    rw [hstep, sum_setPhase, hnothing]
    simp only [added, sub_zero, add_zero]
    exact h
  · rw [hstep]
    exact h

theorem run_balance (decision : ι → σ → Decision σ ρ) (value : σ → A) (cell : σ) (moves : List (ι × Bool)) :
    value (run (step decision) (start cell) moves).cell =
      value cell + ∑ i, added decision value i ((run (step decision) (start cell) moves).phase i) := by
  refine Lib.run_keeps
    (P := fun r : Race ι σ => value r.cell = value cell + ∑ i, added decision value i (r.phase i)) ?_ ?_ moves
  · intro r move h
    exact step_balance h
  · simp only [start, added, Finset.sum_const_zero, add_zero]

end Balance

end Race

end TensorWasm.Lib
