import Mathlib.Logic.Function.Basic
import TensorWasm.Lib.Run

/-!
# Programs of atomic actions on a shared state

A program is a tree of atomic actions. Each action is given what the outside decides this time, reads and
changes the shared state, and may have to wait. The same program can be run alone, or as one of many tasks
whose actions a schedule interleaves.

For a program that runs alone, `Returns` says that it comes to an end and how. For tasks, each has a share
of what an invariant speaks about; `Keeps` says that a program keeps the invariant at every action, whatever
the others do in between, and `Tasks.run_keeps` that a system of such programs then keeps it along every
schedule.
-/

namespace TensorWasm.Lib

open Function (update)

inductive Prog (ε σ α : Type) : Type 1
  | done (a : α)
  | act {β : Type} (action : ε → σ → Option (β × σ)) (next : β → Prog ε σ α)

namespace Prog

variable {ε σ α β γ δ : Type}

protected def bind (p : Prog ε σ α) (f : α → Prog ε σ β) : Prog ε σ β :=
  match p with
  | done a => f a
  | act action next => act action fun b => (next b).bind f

instance : Monad (Prog ε σ) where
  pure := done
  bind := Prog.bind

/-! ## Single actions -/

/-- One access to the shared state. -/
def access (f : σ → β × σ) : Prog ε σ β := act (fun _ s => some (f s)) done

def change (f : σ → σ) : Prog ε σ Unit := access fun s => ((), f s)

def read (f : σ → β) : Prog ε σ β := access fun s => (f s, s)

/-- An access in which the outside has a say. -/
def consult (f : ε → σ → β × σ) : Prog ε σ β := act (fun e s => some (f e s)) done

/-- An access that waits until it is possible. -/
def await (f : σ → Option (β × σ)) : Prog ε σ β := act (fun _ => f) done

/-! ## Running alone -/

/-- Run to the end, with a stream of what the outside decides. -/
def exec : Prog ε σ α → (Nat → ε) → σ → Option (α × σ)
  | done a, _, s => some (a, s)
  | act action next, env, s =>
    match action (env 0) s with
    | some (b, s') => (next b).exec (fun n => env (n + 1)) s'
    | none => none

/-- Alone, and as long as the outside decides within `ok`, the program comes to an end in a way that `Q`
admits. -/
def Returns (ok : ε → Prop) (Q : α → σ → Prop) : Prog ε σ α → σ → Prop
  | done a, s => Q a s
  | act action next, s => ∀ e, ok e → ∃ b s', action e s = some (b, s') ∧ Returns ok Q (next b) s'

variable {ok : ε → Prop} {Q Q' : α → σ → Prop} {s : σ}

variable {p : Prog ε σ α}

theorem Returns.mono (h : Returns ok Q p s) (hQ : ∀ a s, Q a s → Q' a s) : Returns ok Q' p s := by
  induction p generalizing s with
  | done a => exact hQ a s h
  | act action next ih =>
    intro e he
    obtain ⟨b, s', hact, hnext⟩ := h e he
    exact ⟨b, s', hact, ih b hnext⟩

theorem Returns.bind {f : α → Prog ε σ β} {Q : β → σ → Prop}
    (h : Returns ok (fun a s => Returns ok Q (f a) s) p s) : Returns ok Q (p >>= f) s := by
  induction p generalizing s with
  | done a => exact h
  | act action next ih =>
    intro e he
    obtain ⟨b, s', hact, hnext⟩ := h e he
    exact ⟨b, s', hact, ih b hnext⟩

theorem Returns.exec (h : Returns ok Q p s) {env : Nat → ε} (henv : ∀ n, ok (env n)) :
    ∃ a s', p.exec env s = some (a, s') ∧ Q a s' := by
  induction p generalizing s env with
  | done a => exact ⟨a, s, rfl, h⟩
  | act action next ih =>
    obtain ⟨b, s', hact, hnext⟩ := h (env 0) (henv 0)
    obtain ⟨a, s'', hexec, hQ⟩ := ih b hnext fun n => henv (n + 1)
    exact ⟨a, s'', by rw [Prog.exec, hact]; exact hexec, hQ⟩

theorem returns_access {f : σ → α × σ} (h : Q (f s).1 (f s).2) : Returns ok Q (access f) s :=
  fun _ _ => ⟨_, _, rfl, h⟩

theorem returns_consult {f : ε → σ → α × σ} (h : ∀ e, ok e → Q (f e s).1 (f e s).2) : Returns ok Q (consult f) s :=
  fun e he => ⟨_, _, rfl, h e he⟩

theorem Returns.and (h : Returns ok Q p s) (h' : Returns ok Q' p s) : Returns ok (fun a s => Q a s ∧ Q' a s) p s := by
  induction p generalizing s with
  | done a => exact ⟨h, h'⟩
  | act action next ih =>
    intro e he
    obtain ⟨b, s', hact, hnext⟩ := h e he
    obtain ⟨b', s'', hact', hnext'⟩ := h' e he
    obtain ⟨rfl, rfl⟩ := Prod.mk.inj (Option.mem_unique hact hact')
    exact ⟨b, s', hact, ih b hnext hnext'⟩

/-! ## Programs that may fail -/

/-- What is to hold after a step that succeeded, and after one that failed. -/
def outcome (Q : α → σ → Prop) (E : δ → σ → Prop) : Except δ α → σ → Prop
  | .ok a => Q a
  | .error e => E e

variable {E : δ → σ → Prop}

variable {f : α → ExceptT δ (Prog ε σ) β} {Q : Except δ β → σ → Prop}

theorem Returns.bindExcept {p : ExceptT δ (Prog ε σ) α}
    (h : Returns ok (outcome (fun a s => Returns ok Q (f a).run s) fun e s => Q (.error e) s) p.run s) :
    Returns ok Q (p >>= f).run s := by
  refine Returns.bind (h.mono ?_)
  intro result s' hresult
  cases result with
  | ok a | error e => exact hresult

theorem Returns.lift {Q : Except δ α → σ → Prop} (h : Returns ok (fun a s => Q (.ok a) s) p s) :
    Returns ok Q (liftM p : ExceptT δ (Prog ε σ) α).run s :=
  Returns.bind h

theorem Returns.liftBind (h : Returns ok (fun a s => Returns ok Q (f a).run s) p s) :
    Returns ok Q ((liftM p : ExceptT δ (Prog ε σ) α) >>= f).run s :=
  Returns.bindExcept (Returns.lift h)

/-- A check that does not look at the state. -/
theorem Returns.checkBind {x : Except δ α} (hok : ∀ a, x = .ok a → Returns ok Q (f a).run s)
    (herror : ∀ e, x = .error e → Q (.error e) s) :
    Returns ok Q ((liftM x : ExceptT δ (Prog ε σ) α) >>= f).run s := by
  cases x with
  | ok a => exact hok a rfl
  | error e => exact herror e rfl

end Prog

/-! ## Tasks -/

/-- Programs that share a state. -/
structure Tasks (ι ε σ : Type) where
  shared : σ
  programs : ι → Prog ε σ Unit

namespace Tasks

variable {ι ε σ ρ α β : Type} [DecidableEq ι]

/-- The next action of one task. It changes nothing if the task has ended or has to wait. -/
def step (m : Tasks ι ε σ) (turn : ι × ε) : Tasks ι ε σ :=
  match m.programs turn.1 with
  | .done _ => m
  | .act action next =>
    match action turn.2 m.shared with
    | some (b, s) => ⟨s, update m.programs turn.1 (next b)⟩
    | none => m

/-- As task `i` and with the share `r`, the program keeps the invariant at every action, and ends with a
result and a share that `Q` admits. -/
def Keeps (Inv : σ → (ι → ρ) → Prop) (i : ι) (Q : α → ρ → Prop) : Prog ε σ α → ρ → Prop
  | .done a, r => Q a r
  | .act action next, r =>
    ∀ e s shares b s', Inv s shares → shares i = r → action e s = some (b, s') →
      ∃ r', Inv s' (update shares i r') ∧ Keeps Inv i Q (next b) r'

variable {Inv : σ → (ι → ρ) → Prop} {i : ι} {Q Q' : α → ρ → Prop} {r : ρ}

variable {p : Prog ε σ α}

theorem Keeps.mono (h : Keeps Inv i Q p r) (hQ : ∀ a r, Q a r → Q' a r) : Keeps Inv i Q' p r := by
  induction p generalizing r with
  | done a => exact hQ a r h
  | act action next ih =>
    intro e s shares b s' hinv hr hact
    obtain ⟨r', hinv', hnext⟩ := h e s shares b s' hinv hr hact
    exact ⟨r', hinv', ih b hnext⟩

theorem Keeps.bind {f : α → Prog ε σ β} {Q : β → ρ → Prop}
    (h : Keeps Inv i (fun a r => Keeps Inv i Q (f a) r) p r) : Keeps Inv i Q (p >>= f) r := by
  induction p generalizing r with
  | done a => exact h
  | act action next ih =>
    intro e s shares b s' hinv hr hact
    obtain ⟨r', hinv', hnext⟩ := h e s shares b s' hinv hr hact
    exact ⟨r', hinv', ih b hnext⟩

theorem keeps_access {f : σ → α × σ}
    (h : ∀ s shares, Inv s shares → shares i = r → ∃ r', Inv (f s).2 (update shares i r') ∧ Q (f s).1 r') :
    Keeps Inv i Q (Prog.access f : Prog ε σ α) r := by
  intro e s shares b s' hinv hr hact
  obtain ⟨rfl, rfl⟩ := Prod.mk.inj (Option.some.inj hact)
  exact h s shares hinv hr

theorem keeps_consult {f : ε → σ → α × σ}
    (h : ∀ e s shares, Inv s shares → shares i = r → ∃ r', Inv (f e s).2 (update shares i r') ∧ Q (f e s).1 r') :
    Keeps Inv i Q (Prog.consult f) r := by
  intro e s shares b s' hinv hr hact
  obtain ⟨rfl, rfl⟩ := Prod.mk.inj (Option.some.inj hact)
  exact h e s shares hinv hr

theorem keeps_await {f : σ → Option (α × σ)}
    (h : ∀ s shares a s', Inv s shares → shares i = r → f s = some (a, s') →
      ∃ r', Inv s' (update shares i r') ∧ Q a r') :
    Keeps Inv i Q (Prog.await f : Prog ε σ α) r := by
  intro e s shares b s' hinv hr hact
  exact h s shares b s' hinv hr hact

/-! A task that may fail. -/

variable {δ : Type} {E : δ → ρ → Prop} {f : α → ExceptT δ (Prog ε σ) β} {Q : Except δ β → ρ → Prop}

theorem Keeps.bindExcept {p : ExceptT δ (Prog ε σ) α}
    (h : Keeps Inv i (Prog.outcome (fun a r => Keeps Inv i Q (f a).run r) fun e r => Q (.error e) r) p.run r) :
    Keeps Inv i Q (p >>= f).run r := by
  refine Keeps.bind (h.mono ?_)
  intro result r' hresult
  cases result with
  | ok a | error e => exact hresult

theorem Keeps.lift {Q : Except δ α → ρ → Prop} (h : Keeps Inv i (fun a r => Q (.ok a) r) p r) :
    Keeps Inv i Q (liftM p : ExceptT δ (Prog ε σ) α).run r :=
  Keeps.bind h

theorem Keeps.liftBind (h : Keeps Inv i (fun a r => Keeps Inv i Q (f a).run r) p r) :
    Keeps Inv i Q ((liftM p : ExceptT δ (Prog ε σ) α) >>= f).run r :=
  Keeps.bindExcept (Keeps.lift h)

/-- What holds of the tasks of a system: the invariant with some shares, and with them every task keeps
it. -/
def Sound (Inv : σ → (ι → ρ) → Prop) (m : Tasks ι ε σ) : Prop :=
  ∃ shares, Inv m.shared shares ∧ ∀ i, Keeps Inv i (fun _ _ => True) (m.programs i) (shares i)

theorem Sound.step {m : Tasks ι ε σ} (h : Sound Inv m) (turn : ι × ε) : Sound Inv (m.step turn) := by
  obtain ⟨shares, hinv, htasks⟩ := h
  obtain ⟨j, e⟩ := turn
  have hj := htasks j
  unfold Tasks.step
  cases hp : m.programs j with
  | done a => exact ⟨shares, hinv, htasks⟩
  | act action next =>
    simp only
    cases hact : action e m.shared with
    | none => exact ⟨shares, hinv, htasks⟩
    | some result =>
      obtain ⟨b, s⟩ := result
      rw [hp] at hj
      obtain ⟨r', hinv', hnext⟩ := hj e m.shared shares b s hinv rfl hact
      refine ⟨update shares j r', hinv', fun i => ?_⟩
      by_cases hi : i = j
      · subst hi
        simpa only [Function.update_self] using hnext
      · simpa only [Function.update_of_ne hi] using htasks i

/-- Along every schedule. -/
theorem Sound.run {m : Tasks ι ε σ} (h : Sound Inv m) (schedule : List (ι × ε)) :
    Sound Inv (Lib.run Tasks.step m schedule) :=
  run_keeps (fun _ turn hm => hm.step turn) h schedule

end Tasks

end TensorWasm.Lib
