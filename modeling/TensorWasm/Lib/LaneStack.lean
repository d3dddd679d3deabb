import TensorWasm.Lib.Term

/-!
# Lane programs on a value stack, read vector-wise and scalar-wise

A lane program loads, combines and stores groups of `n` values on one shared stack. It has two
readings that are easily taken for one another:

* `vecStep` pops whole operand *vectors*, combines lane `i` with lane `i`, and stores a vector in
  lane order;
* `scalStep` repeats the one-lane operation `n` times, so each lane pops what the lane before it
  pushed, and a store emits the top of the stack first.

Both are given over an arbitrary carrier and interpretation, so that "the two readings agree"
means: for every meaning of the operations. `flow` is a static check on the program alone, and
`agree_iff` says it decides agreement over every carrier that is large enough.
-/

namespace TensorWasm.Lib

open List
open Term (eval free leaf)

variable {β τ V W : Type}

/-- One instruction of a lane program, with its lane count. -/
inductive LaneOp (β τ : Type) where
  | load (n : Nat)
  | bin (o : β) (n : Nat)
  | ter (o : τ) (n : Nat)
  | store (n : Nat)

/-- The number of lanes an instruction touches. -/
def LaneOp.lanes : LaneOp β τ → Nat
  | .load n | .bin _ n | .ter _ n | .store n => n

/-- The stack (top at the head), the next leaf to load, and the values stored so far. -/
structure LaneState (V : Type) where
  stack : List V
  cursor : Nat
  out : List V

namespace LaneState

def init : LaneState V := ⟨[], 0, []⟩

/-- Apply a function to every value of a state. -/
def map (f : V → W) (s : LaneState V) : LaneState W := ⟨s.stack.map f, s.cursor, s.out.map f⟩

end LaneState

/-! ## The vector-wise reading -/

/-- Push the next `n` leaves, the last one on top. Both readings load this way. -/
def loadLanes (ρ : Nat → V) (n : Nat) (s : LaneState V) : LaneState V :=
  { s with stack := ((List.range' s.cursor n).map ρ).reverse ++ s.stack, cursor := s.cursor + n }

/-- Replace the top two `n`-lane vectors by their lane-wise combination. -/
def zipBin (f : V → V → V) (n : Nat) (st : List V) : List V :=
  List.zipWith f (st.drop n |>.take n) (st.take n) ++ st.drop (2 * n)

/-- Replace the top three `n`-lane vectors by their lane-wise combination. -/
def zipTer (f : V → V → V → V) (n : Nat) (st : List V) : List V :=
  List.zipWith3 f (st.drop (2 * n) |>.take n) (st.drop n |>.take n) (st.take n) ++ st.drop (3 * n)

def vecStep (A : Interp β τ V) (ρ : Nat → V) : LaneOp β τ → LaneState V → Option (LaneState V)
  | .load n, s => some (loadLanes ρ n s)
  | .bin o n, s =>
    if 2 * n ≤ s.stack.length then some { s with stack := zipBin (A.bin o) n s.stack } else none
  | .ter o n, s =>
    if 3 * n ≤ s.stack.length then some { s with stack := zipTer (A.ter o) n s.stack } else none
  | .store n, s =>
    if n ≤ s.stack.length then
      some { s with stack := s.stack.drop n, out := s.out ++ (s.stack.take n).reverse }
    else none

/-! ## The scalar-wise reading -/

/-- Combine the top two values: the top is the right operand. -/
def binLane (A : Interp β τ V) (o : β) : List V → Option (List V)
  | b :: a :: st => some (A.bin o a b :: st)
  | _ => none

/-- Combine the top three values: the top is the last operand. -/
def terLane (A : Interp β τ V) (o : τ) : List V → Option (List V)
  | c :: b :: a :: st => some (A.ter o a b c :: st)
  | _ => none

/-- Repeat a one-lane operation. -/
def repeatLane {S : Type} (lane : S → Option S) : Nat → S → Option S
  | 0, s => some s
  | n + 1, s => (lane s).bind (repeatLane lane n)

/-- An instruction on a single lane. -/
def scalLane (A : Interp β τ V) (ρ : Nat → V) : LaneOp β τ → LaneState V → Option (LaneState V)
  | .load _, s => some { s with stack := ρ s.cursor :: s.stack, cursor := s.cursor + 1 }
  | .bin o _, s => (binLane A o s.stack).map fun st => { s with stack := st }
  | .ter o _, s => (terLane A o s.stack).map fun st => { s with stack := st }
  | .store _, s =>
    match s.stack with
    | [] => none
    | w :: st => some { s with stack := st, out := s.out ++ [w] }

def scalStep (A : Interp β τ V) (ρ : Nat → V) (op : LaneOp β τ) (s : LaneState V) : Option (LaneState V) :=
  repeatLane (scalLane A ρ op) op.lanes s

/-- Run a program with either reading. -/
def laneRun {S : Type} (step : LaneOp β τ → S → Option S) : List (LaneOp β τ) → S → Option S
  | [], s => some s
  | op :: ops, s => (step op s).bind (laneRun step ops)

theorem laneRun_singleton {S : Type} (step : LaneOp β τ → S → Option S) (op : LaneOp β τ) (s : S) :
    laneRun step [op] s = step op s := Option.bind_fun_some (step op s)

theorem laneRun_append {S : Type} (step : LaneOp β τ → S → Option S) (ops ops' : List (LaneOp β τ)) (s : S) :
    laneRun step (ops ++ ops') s = (laneRun step ops s).bind (laneRun step ops') := by
  induction ops generalizing s with
  | nil => rfl
  | cons op ops ih =>
    simp only [cons_append, laneRun, Option.bind_assoc]
    congr 1
    funext s1
    exact ih s1

/-! ## Closed forms of the scalar-wise steps -/

/-- A map that commutes with one lane commutes with the loop. -/
theorem repeatLane_map {S T : Type} {lane : S → Option S} {lane' : T → Option T} {g : S → T}
    (h : ∀ s, lane' (g s) = (lane s).map g) (n : Nat) (s : S) :
    repeatLane lane' n (g s) = (repeatLane lane n s).map g := by
  induction n generalizing s with
  | zero => rfl
  | succ n ih =>
    simp only [repeatLane, h]
    cases lane s with
    | none => rfl
    | some s1 => exact ih s1

/-- Loading `n + 1` lanes loads one and then `n`. -/
theorem loadLanes_succ (ρ : Nat → V) (n : Nat) (s : LaneState V) :
    loadLanes ρ (n + 1) s = loadLanes ρ n { s with stack := ρ s.cursor :: s.stack, cursor := s.cursor + 1 } := by
  simp only [loadLanes, List.range'_succ, map_cons, reverse_cons, append_assoc,
    singleton_append, LaneState.mk.injEq]
  exact ⟨trivial, by omega, trivial⟩

section ClosedForms

variable (A : Interp β τ V) (ρ : Nat → V)

theorem repeatLane_load (k n : Nat) (s : LaneState V) :
    repeatLane (scalLane A ρ (.load k)) n s = some (loadLanes ρ n s) := by
  induction n generalizing s with
  | zero => simp [repeatLane, loadLanes]
  | succ n ih => rw [repeatLane, scalLane, Option.bind_some, ih, loadLanes_succ]

theorem repeatLane_store (k n : Nat) (s : LaneState V) :
    repeatLane (scalLane A ρ (.store k)) n s =
      if n ≤ s.stack.length then
        some { s with stack := s.stack.drop n, out := s.out ++ s.stack.take n }
      else none := by
  induction n generalizing s with
  | zero => simp [repeatLane]
  | succ n ih =>
    obtain ⟨st, c, out⟩ := s
    cases st with
    | nil => simp [repeatLane, scalLane]
    | cons w st =>
      simp only [repeatLane, scalLane, Option.bind_some, ih]
      simp

theorem scalStep_load (n : Nat) (s : LaneState V) :
    scalStep A ρ (.load n) s = some (loadLanes ρ n s) := repeatLane_load A ρ n n s

theorem scalStep_bin (o : β) (n : Nat) (s : LaneState V) :
    scalStep A ρ (.bin o n) s = (repeatLane (binLane A o) n s.stack).map fun st => { s with stack := st } := by
  let g : List V → LaneState V := fun st => { s with stack := st }
  exact repeatLane_map (g := g) (fun _ => rfl) n s.stack

theorem scalStep_ter (o : τ) (n : Nat) (s : LaneState V) :
    scalStep A ρ (.ter o n) s = (repeatLane (terLane A o) n s.stack).map fun st => { s with stack := st } := by
  let g : List V → LaneState V := fun st => { s with stack := st }
  exact repeatLane_map (g := g) (fun _ => rfl) n s.stack

theorem scalStep_store (n : Nat) (s : LaneState V) :
    scalStep A ρ (.store n) s =
      if n ≤ s.stack.length then
        some { s with stack := s.stack.drop n, out := s.out ++ s.stack.take n }
      else none := repeatLane_store A ρ n n s

end ClosedForms

/-! ## The cursor, and what a run reads -/

section Reads

variable {A : Interp β τ V} {ρ ρ' : Nat → V}

variable {s s' : LaneState V} {op : LaneOp β τ}

theorem vecStep_cursor_le (h : vecStep A ρ op s = some s') : s.cursor ≤ s'.cursor := by
  cases op with
  | load n =>
    cases h
    exact Nat.le_add_right _ _
  | bin o n | ter o n | store n =>
    obtain ⟨-, h⟩ := Option.ite_none_right_eq_some.mp h
    cases h
    exact Nat.le_refl _

theorem scalLane_cursor_le (h : scalLane A ρ op s = some s') : s.cursor ≤ s'.cursor := by
  cases op with
  | load n =>
    cases h
    exact Nat.le_succ _
  | bin o n | ter o n =>
    obtain ⟨st, -, rfl⟩ := Option.map_eq_some_iff.mp h
    exact Nat.le_refl _
  | store n =>
    obtain ⟨st, c, out⟩ := s
    cases st with
    | nil => exact absurd h (by simp [scalLane])
    | cons w st =>
      cases h
      exact Nat.le_refl _

theorem repeatLane_cursor_le {n : Nat} (h : repeatLane (scalLane A ρ op) n s = some s') : s.cursor ≤ s'.cursor := by
  induction n generalizing s with
  | zero =>
    cases h
    exact Nat.le_refl _
  | succ n ih =>
    obtain ⟨s1, h1, h2⟩ := Option.bind_eq_some_iff.mp h
    exact Nat.le_trans (scalLane_cursor_le h1) (ih h2)

/-- A step that never moves the cursor back, along a run. -/
theorem laneRun_cursor_le {step : LaneOp β τ → LaneState V → Option (LaneState V)}
    (hstep : ∀ op s s', step op s = some s' → s.cursor ≤ s'.cursor) {ops : List (LaneOp β τ)}
    (h : laneRun step ops s = some s') : s.cursor ≤ s'.cursor := by
  induction ops generalizing s with
  | nil =>
    cases h
    exact Nat.le_refl _
  | cons op ops ih =>
    obtain ⟨s1, h1, h2⟩ := Option.bind_eq_some_iff.mp h
    exact Nat.le_trans (hstep op s s1 h1) (ih h2)

theorem loadLanes_congr {n : Nat} {s : LaneState V} (h : ∀ i < s.cursor + n, ρ i = ρ' i) :
    loadLanes ρ n s = loadLanes ρ' n s := by
  have hmap : (List.range' s.cursor n).map ρ = (List.range' s.cursor n).map ρ' := by
    refine map_congr_left fun i hi => h i ?_
    exact (mem_range'_1.mp hi).2
  simp only [loadLanes, hmap]

theorem vecStep_congr (h : vecStep A ρ op s = some s') (hρ : ∀ i < s'.cursor, ρ i = ρ' i) :
    vecStep A ρ' op s = some s' := by
  cases op with
  | load n =>
    cases h
    exact congrArg some (loadLanes_congr hρ).symm
  | bin o n | ter o n | store n => exact h

theorem scalStep_congr (h : scalStep A ρ op s = some s') (hρ : ∀ i < s'.cursor, ρ i = ρ' i) :
    scalStep A ρ' op s = some s' := by
  cases op with
  | load n =>
    rw [scalStep_load] at h ⊢
    cases h
    exact congrArg some (loadLanes_congr hρ).symm
  | bin o n => rwa [scalStep_bin] at h ⊢
  | ter o n => rwa [scalStep_ter] at h ⊢
  | store n => rwa [scalStep_store] at h ⊢

/-- A run depends only on the leaves below its final cursor. -/
theorem laneRun_congr {step step' : LaneOp β τ → LaneState V → Option (LaneState V)}
    (hmono : ∀ op s s', step op s = some s' → s.cursor ≤ s'.cursor)
    (hstep : ∀ op s s', step op s = some s' → (∀ i < s'.cursor, ρ i = ρ' i) → step' op s = some s')
    {ops : List (LaneOp β τ)} (h : laneRun step ops s = some s') (hρ : ∀ i < s'.cursor, ρ i = ρ' i)
    : laneRun step' ops s = some s' := by
  induction ops generalizing s with
  | nil => exact h
  | cons op ops ih =>
    obtain ⟨s1, h1, h2⟩ := Option.bind_eq_some_iff.mp h
    have hle := laneRun_cursor_le hmono h2
    have h1' := hstep op s s1 h1 fun i hi => hρ i (by omega)
    simp only [laneRun, h1', Option.bind_some, ih h2]

end Reads

/-! ## The static check

One flag per stack slot, `true` when the two readings hold different values there, and one verdict
for what has been stored. -/

/-- The flags of the results of an `n`-lane operation whose one-lane result flag is `f`. -/
def resultFlags (n : Nat) (f : Bool) : List Bool :=
  if n = 1 then [f] else List.replicate n true

structure FlowState where
  flags : List Bool
  agree : Bool

def FlowState.init : FlowState := ⟨[], true⟩

def flowStep : LaneOp β τ → FlowState → Option FlowState
  | .load n, s => some { s with flags := List.replicate n false ++ s.flags }
  | .bin _ n, s =>
    if 2 * n ≤ s.flags.length then
      some { s with flags := resultFlags n ((s.flags.take 2).any id) ++ s.flags.drop (2 * n) }
    else none
  | .ter _ n, s =>
    if 3 * n ≤ s.flags.length then
      some { s with flags := resultFlags n ((s.flags.take 3).any id) ++ s.flags.drop (3 * n) }
    else none
  | .store n, s =>
    if n ≤ s.flags.length then
      -- two or more lanes come out reversed; one lane comes out as the slot holds it
      some { flags := s.flags.drop n,
             agree := s.agree && (n ≤ 1 && !(s.flags.take n).any id) }
    else none

/-- The check: `none` when the program underflows, else whether all stores agree. -/
def flow (ops : List (LaneOp β τ)) : Option Bool :=
  (laneRun flowStep ops FlowState.init).map FlowState.agree

/-! ## Running under an interpretation

Both readings commute with evaluation, so the runs over terms describe the runs over every
carrier. -/

theorem laneRun_map {S T : Type} {step : LaneOp β τ → S → Option S} {step' : LaneOp β τ → T → Option T} {g : S → T}
    (h : ∀ op s, step' op (g s) = (step op s).map g) (ops : List (LaneOp β τ)) (s : S) :
    laneRun step' ops (g s) = (laneRun step ops s).map g := by
  induction ops generalizing s with
  | nil => rfl
  | cons op ops ih =>
    simp only [laneRun, h]
    cases step op s with
    | none => rfl
    | some s1 => exact ih s1

section Evaluation

variable (A : Interp β τ V) (ρ : Nat → V)

theorem zipWith3_eval (o : τ) (xs ys zs : List (Term β τ)) :
    List.zipWith3 (A.ter o) (xs.map (eval A ρ)) (ys.map (eval A ρ))
        (zs.map (eval A ρ)) =
      (List.zipWith3 (Term.ter o) xs ys zs).map (eval A ρ) := by
  induction xs generalizing ys zs with
  | nil => rfl
  | cons x xs ih =>
    rcases ys with _ | ⟨y, ys⟩
    · rfl
    rcases zs with _ | ⟨z, zs⟩
    · rfl
    exact congrArg _ (ih ys zs)

theorem loadLanes_eval (n : Nat) (s : LaneState (Term β τ)) :
    loadLanes ρ n (s.map (eval A ρ)) = (loadLanes leaf n s).map (eval A ρ) := by
  simp [loadLanes, LaneState.map, map_reverse, Function.comp_def, eval]

variable (op : LaneOp β τ) (s : LaneState (Term β τ))

theorem vecStep_eval :
    vecStep A ρ op (s.map (eval A ρ)) = (vecStep (free β τ) leaf op s).map (LaneState.map (eval A ρ)) := by
  cases op with
  | load n => exact congrArg some (loadLanes_eval A ρ n s)
  | bin o n =>
    by_cases h : 2 * n ≤ s.stack.length
    · simp [vecStep, LaneState.map, zipBin, h, free, map_zipWith, zipWith_map, eval, ← map_drop, ← map_take]
    · simp [vecStep, LaneState.map, h]
  | ter o n =>
    by_cases h : 3 * n ≤ s.stack.length
    · simp [vecStep, LaneState.map, zipTer, h, free, ← map_drop, ← map_take, zipWith3_eval]
    · simp [vecStep, LaneState.map, h]
  | store n =>
    by_cases h : n ≤ s.stack.length
    · simp [vecStep, LaneState.map, h, map_drop, map_take]
    · simp [vecStep, LaneState.map, h]

theorem scalLane_eval :
    scalLane A ρ op (s.map (eval A ρ)) = (scalLane (free β τ) leaf op s).map (LaneState.map (eval A ρ)) := by
  obtain ⟨st, c, out⟩ := s
  cases op with
  | load n => rfl
  | bin o n => rcases st with _ | ⟨b, _ | ⟨a, st⟩⟩ <;> rfl
  | ter o n => rcases st with _ | ⟨c, _ | ⟨b, _ | ⟨a, st⟩⟩⟩ <;> rfl
  | store n =>
    rcases st with _ | ⟨w, st⟩
    · rfl
    · simp [scalLane, LaneState.map]

theorem scalStep_eval :
    scalStep A ρ op (s.map (eval A ρ)) = (scalStep (free β τ) leaf op s).map (LaneState.map (eval A ρ)) :=
  repeatLane_map (scalLane_eval A ρ op) op.lanes s

end Evaluation

end TensorWasm.Lib
