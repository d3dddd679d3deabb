import TensorWasm.Lib.Outcome

/-!
# Computations that leave a trace

`Traced ω ε α` may fail and leaves a list of events. The events before a failure stay, so that one can
say of every computation, and not only of those that succeed, what it has done. `Only P x` says that
all events of `x` satisfy `P`; the rule for `bind` may use that the first part has succeeded.
`Guarded G W x` says that no event of `W` comes before one of `G`.
-/

namespace TensorWasm.Lib

open List

variable {ω ε α β : Type}

structure Traced (ω ε α : Type) where
  log : List ω
  result : Except ε α
  deriving DecidableEq

namespace Traced

/-- The rest of a computation, once the first part has ended. -/
def andThen (x : Traced ω ε α) (f : α → Traced ω ε β) : Traced ω ε β :=
  match x.result with
  | .error e => ⟨x.log, .error e⟩
  | .ok a => ⟨x.log ++ (f a).log, (f a).result⟩

instance : Monad (Traced ω ε) where
  pure a := ⟨[], .ok a⟩
  bind := andThen

/-- A computation without events. -/
def quiet (r : Except ε α) : Traced ω ε α := ⟨[], r⟩

def fail (e : ε) : Traced ω ε α := quiet (.error e)

/-- A computation that is one event. -/
def perform (event : ω) (r : Except ε α) : Traced ω ε α := ⟨[event], r⟩

/-- What is done about a failure. -/
def handle {ε' : Type} (x : Traced ω ε α) (f : ε → Traced ω ε' α) : Traced ω ε' α :=
  match x.result with
  | .ok a => ⟨x.log, .ok a⟩
  | .error e => ⟨x.log ++ (f e).log, (f e).result⟩

/-- A failure under another name. -/
def mapError {ε' : Type} (x : Traced ω ε α) (f : ε → ε') : Traced ω ε' α := ⟨x.log, x.result.mapError f⟩

@[simp] theorem quiet_result (r : Except ε α) : (quiet r : Traced ω ε α).result = r := rfl

@[simp] theorem perform_result (event : ω) (r : Except ε α) : (perform event r).result = r := rfl

@[simp] theorem quiet_ok_bind (a : α) (f : α → Traced ω ε β) : (quiet (.ok a) >>= f) = f a := rfl

/-- The result of a computation does not depend on its trace. -/
theorem bind_result (x : Traced ω ε α) (f : α → Traced ω ε β) :
    (x >>= f).result = x.result >>= fun a => (f a).result := by
  change (andThen x f).result = _
  unfold andThen
  cases x.result with
  | error e | ok a => rfl

variable {x : Traced ω ε α} {f : α → Traced ω ε β}

theorem bind_result_ok {b : β} : (x >>= f).result = .ok b ↔ ∃ a, x.result = .ok a ∧ (f a).result = .ok b := by
  rw [bind_result]
  exact bind_eq_ok

theorem bind_log_ok {a : α} (h : x.result = .ok a) (f : α → Traced ω ε β) : (x >>= f).log = x.log ++ (f a).log := by
  change (andThen x f).log = _
  unfold andThen
  rw [h]

theorem bind_log_error {e : ε} (h : x.result = .error e) (f : α → Traced ω ε β) : (x >>= f).log = x.log := by
  change (andThen x f).log = _
  unfold andThen
  rw [h]

theorem pure_eq_quiet (a : α) : (pure a : Traced ω ε α) = quiet (.ok a) := rfl

theorem perform_ok_bind (event : ω) (a : α) (f : α → Traced ω ε β) :
    (perform event (.ok a) >>= f) = ⟨event :: (f a).log, (f a).result⟩ := rfl

/-- A chain of computations without events is one of them. -/
theorem quiet_bind_quiet (r : Except ε α) (f : α → Except ε β) :
    (quiet r >>= fun a => quiet (f a)) = (quiet (r >>= f) : Traced ω ε β) := by
  cases r with
  | error e | ok a => rfl

/-! ## What a computation does -/

/-- All events satisfy `P`, whether the computation succeeds or fails. -/
def Only (P : ω → Prop) (x : Traced ω ε α) : Prop := ∀ event ∈ x.log, P event

variable {P : ω → Prop}

theorem only_pure (a : α) : Only P (pure a : Traced ω ε α) :=
  fun _ h => nomatch h

theorem only_quiet (r : Except ε α) : Only P (quiet r : Traced ω ε α) :=
  fun _ h => nomatch h

theorem only_fail (e : ε) : Only P (fail e : Traced ω ε α) := only_quiet _

theorem only_perform {event : ω} (h : P event) (r : Except ε α) : Only P (perform event r) := by
  intro event' hmem
  rw [mem_singleton.mp hmem]
  exact h

/-- The second part acts only after the first has succeeded. -/
theorem Only.bind (hx : Only P x) (hf : ∀ a, x.result = .ok a → Only P (f a)) : Only P (x >>= f) := by
  intro event hmem
  cases hresult : x.result with
  | error e =>
    rw [bind_log_error hresult] at hmem
    exact hx event hmem
  | ok a =>
    rw [bind_log_ok hresult] at hmem
    rcases mem_append.mp hmem with hfirst | hrest
    · exact hx event hfirst
    · exact hf a hresult event hrest

theorem Only.ite {c : Prop} [Decidable c] {x y : Traced ω ε α} (hx : c → Only P x)
    (hy : ¬ c → Only P y) : Only P (if c then x else y) := by
  split
  · next h => exact hx h
  · next h => exact hy h

/-! ## What comes before what -/

/-- Every event of `W` in the log has an event of `G` before it. -/
def Guards (G W : ω → Prop) (log : List ω) : Prop :=
  ∀ before event after, log = before ++ event :: after → W event → ∃ guard ∈ before, G guard

/-- An event of two logs in a row is in the first or in the second. -/
theorem append_eq_split {first second before after : List ω} {event : ω}
    (h : first ++ second = before ++ event :: after) :
    (∃ tail, first = before ++ event :: tail) ∨
      ∃ middle, before = first ++ middle ∧ second = middle ++ event :: after := by
  rcases append_eq_append_iff.mp h with ⟨middle, hbefore, hsecond⟩ | ⟨middle, hfirst, hrest⟩
  · exact .inr ⟨middle, hbefore, hsecond⟩
  · cases middle with
    | nil => exact .inr ⟨[], by rw [hfirst, append_nil, append_nil], hrest.symm⟩
    | cons head tail =>
      obtain ⟨rfl, -⟩ := List.cons.inj hrest
      exact .inl ⟨tail, hfirst⟩

variable {G W : ω → Prop}

theorem Guards.append {first second : List ω} (hfirst : Guards G W first)
    (hsecond : Guards G W second) : Guards G W (first ++ second) := by
  intro before event after hlog hW
  rcases append_eq_split hlog with ⟨tail, hsplit⟩ | ⟨middle, hbefore, hsplit⟩
  · exact hfirst before event tail hsplit hW
  · obtain ⟨guard, hmem, hG⟩ := hsecond middle event after hsplit hW
    exact ⟨guard, hbefore ▸ mem_append_right first hmem, hG⟩

/-- Behind a guard everything is allowed. -/
theorem Guards.append_of_guard {first second : List ω} (hfirst : Guards G W first)
    (hguard : ∃ guard ∈ first, G guard) : Guards G W (first ++ second) := by
  intro before event after hlog hW
  obtain ⟨guard, hmem, hG⟩ := hguard
  rcases append_eq_split hlog with ⟨tail, hsplit⟩ | ⟨middle, hbefore, -⟩
  · exact hfirst before event tail hsplit hW
  · exact ⟨guard, hbefore ▸ mem_append_left middle hmem, hG⟩

/-- No event of `W` comes before one of `G`. -/
def Guarded (G W : ω → Prop) (x : Traced ω ε α) : Prop := Guards G W x.log

theorem Only.guarded (h : Only (fun event => ¬ W event) x) : Guarded G W x := by
  intro before event after hlog hW
  refine absurd hW (h event ?_)
  rw [hlog]
  exact mem_append_right before mem_cons_self

theorem Guarded.bind (hx : Guarded G W x) (hf : ∀ a, x.result = .ok a → Guarded G W (f a)) :
    Guarded G W (x >>= f) := by
  unfold Guarded
  cases hresult : x.result with
  | error e =>
    rw [bind_log_error hresult]
    exact hx
  | ok a =>
    rw [bind_log_ok hresult]
    exact hx.append (hf a hresult)

/-- The computation does not succeed without an event of `G`. -/
def Leaves (G : ω → Prop) (x : Traced ω ε α) : Prop :=
  ∀ a, x.result = .ok a → ∃ guard ∈ x.log, G guard

theorem leaves_fail (e : ε) : Leaves G (fail e : Traced ω ε α) :=
  fun _ h => nomatch h

theorem Leaves.bind (hx : Leaves G x) (f : α → Traced ω ε β) : Leaves G (x >>= f) := by
  intro b h
  obtain ⟨a, ha, -⟩ := bind_result_ok.mp h
  obtain ⟨guard, hmem, hG⟩ := hx a ha
  refine ⟨guard, ?_, hG⟩
  rw [bind_log_ok ha]
  exact mem_append_left _ hmem

theorem leaves_bind (hf : ∀ a, x.result = .ok a → Leaves G (f a)) : Leaves G (x >>= f) := by
  intro b h
  obtain ⟨a, ha, hb⟩ := bind_result_ok.mp h
  obtain ⟨guard, hmem, hG⟩ := hf a ha b hb
  refine ⟨guard, ?_, hG⟩
  rw [bind_log_ok ha]
  exact mem_append_right _ hmem

/-- Once the first part has seen a guard, the second is free. -/
theorem Guarded.bind_of_guard (hx : Guarded G W x) (hguard : Leaves G x) : Guarded G W (x >>= f) := by
  unfold Guarded
  cases hresult : x.result with
  | error e =>
    rw [bind_log_error hresult]
    exact hx
  | ok a =>
    rw [bind_log_ok hresult]
    exact hx.append_of_guard (hguard a hresult)

/-! ## Failures -/

section Handle

variable {ε' : Type} {x : Traced ω ε α} {f : ε → Traced ω ε' α}

theorem handle_of_ok {a : α} (h : x.result = .ok a) : x.handle f = ⟨x.log, .ok a⟩ := by
  unfold handle
  rw [h]

theorem handle_of_error {e : ε} (h : x.result = .error e) : x.handle f = ⟨x.log ++ (f e).log, (f e).result⟩ := by
  unfold handle
  rw [h]

theorem Guarded.handle {W : ω → Prop} (hx : Guarded G W x) (hf : ∀ e, Guarded G W (f e)) :
    Guarded G W (x.handle f) := by
  unfold Guarded
  cases hresult : x.result with
  | ok a =>
    rw [handle_of_ok hresult]
    exact hx
  | error e =>
    rw [handle_of_error hresult]
    exact hx.append (hf e)

theorem Leaves.handle (hx : Leaves G x) (hf : ∀ e, Leaves G (f e)) : Leaves G (x.handle f) := by
  intro a h
  cases hresult : x.result with
  | ok a' =>
    rw [handle_of_ok hresult]
    exact hx a' hresult
  | error e =>
    rw [handle_of_error hresult] at h ⊢
    obtain ⟨guard, hmem, hG⟩ := hf e a h
    exact ⟨guard, mem_append_right _ hmem, hG⟩

end Handle

end Traced

end TensorWasm.Lib
