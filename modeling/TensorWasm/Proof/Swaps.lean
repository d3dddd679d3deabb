import TensorWasm.Proof.Analyse

/-!
# What the re-encoding pass records

A walk changes the rewriter's state in two ways only: the hook and the section overrides set
flags, and each function body moves the cursor and may record a swap. `walks_keeps` says so once;
that every record was decided at a code position, and that every decision is recorded, are two
instances of it.
-/

namespace TensorWasm.Jit

open Lib Wasm

/-! ## Invariants of the driver -/

section Driver

variable {env : RewriterEnv} {P : RewriterState → Prop}

/-- A property of the state that does not look at the flags. -/
def IgnoresFlags (P : RewriterState → Prop) : Prop :=
  ∀ s t i, P s → P { s with typeSectionAppended := t, importSectionAppended := i }

variable {s s' : RewriterState} {out out' : Module}

theorem hook_keeps (hflags : IgnoresFlags P) {after before : Option SectionId}
    (hhook : env.reencoder.intersperseSectionHook s out after before = (s', out')) (h : P s) : P s' := by
  have hkept : P (env.intersperseSectionHook s out after before).1 := by
    unfold RewriterEnv.intersperseSectionHook
    split
    · exact h
    · exact h
    · exact h
    · dsimp only
      split <;> split <;> exact hflags s _ _ h
  rwa [show env.intersperseSectionHook s out after before = (s', out') from hhook] at hkept

variable (hbody : ∀ s b, P s → P (env.parseFunctionBody s b).1)

include hbody

theorem bodies_keeps {bs bs' : List FuncBody} (hbodies : env.reencoder.Bodies s bs s' bs') (h : P s) : P s' := by
  induction hbodies with
  | nil => exact h
  | cons _ ih => exact ih (hbody _ _ h)

theorem encodes_keeps (hflags : IgnoresFlags P) {sec sec' : Section}
    (hencodes : env.reencoder.Encodes s sec s' sec') (h : P s) : P s' := by
  cases hencodes with
  | code hbodies => exact bodies_keeps hbody hbodies h
  | type | «import» => exact hflags s _ _ h
  | custom | other => exact h

/-- **What every body keeps, the whole driver keeps.** -/
theorem walks_keeps (hflags : IgnoresFlags P) {m : Module} (hwalks : env.reencoder.Walks s out m s' out')
    (h : P s) : P s' := by
  induction hwalks with
  | finish hhook => exact hook_keeps hflags hhook h
  | step hwrites _ ih =>
    refine ih ?_
    cases hwrites with
    | custom hencodes => exact encodes_keeps hbody hflags hencodes h
    | hookFirst hhook hencodes => exact encodes_keeps hbody hflags hencodes (hook_keeps hflags hhook h)
    | hookLast hencodes hhook => exact hook_keeps hflags hhook (encodes_keeps hbody hflags hencodes h)

end Driver

/-! ## Recorded swaps -/

variable {env : RewriterEnv}

/-- Every recorded swap was decided at some code position. -/
def SwapsFrom (env : RewriterEnv) (s : RewriterState) : Prop :=
  ∀ f ∈ s.swapped, ∃ k info tramp, env.swapFor k = some (info, f.fingerprint, tramp) ∧
    f.functionIndex = env.numFunctionImports + UInt32.ofNat k

theorem SwapsFrom.body {s : RewriterState} (h : SwapsFrom env s) (b : FuncBody) :
    SwapsFrom env (env.parseFunctionBody s b).1 := by
  cases hswap : env.swapFor s.codeCursor with
  | none =>
    rw [env.parseFunctionBody_none hswap]
    exact h
  | some p =>
    obtain ⟨info, fp, tramp⟩ := p
    rw [env.parseFunctionBody_some hswap]
    intro f hf
    rcases List.mem_append.mp hf with hf | hf
    · exact h f hf
    · obtain rfl := List.mem_singleton.mp hf
      exact ⟨s.codeCursor, info, tramp, hswap, rfl⟩

variable {s s' : RewriterState} {out out' m : Module}

theorem swapsFrom_walks (hwalks : env.reencoder.Walks RewriterState.init out m s out') : SwapsFrom env s := by
  have hinit : SwapsFrom env RewriterState.init := by
    intro f hf
    exact absurd hf (by simp [RewriterState.init])
  exact walks_keeps (fun _ b h => h.body b) (fun _ _ _ h => h) hwalks hinit

/-- The swaps decided before the cursor are on record. -/
def RecordsUpTo (env : RewriterEnv) (s : RewriterState) : Prop :=
  ∀ k < s.codeCursor, ∀ p, env.swapFor k = some p → ∃ f ∈ s.swapped, f.fingerprint = p.2.1 ∧
    f.functionIndex = env.numFunctionImports + UInt32.ofNat k

theorem RecordsUpTo.body {s : RewriterState} (h : RecordsUpTo env s) (b : FuncBody) :
    RecordsUpTo env (env.parseFunctionBody s b).1 := by
  cases hswap : env.swapFor s.codeCursor with
  | none =>
    rw [env.parseFunctionBody_none hswap]
    intro k hk p hp
    rcases Nat.lt_succ_iff_lt_or_eq.mp hk with hk | rfl
    · exact h k hk p hp
    · exact absurd (hswap.symm.trans hp) (by simp)
  | some q =>
    obtain ⟨info, fp, tramp⟩ := q
    rw [env.parseFunctionBody_some hswap]
    intro k hk p hp
    rcases Nat.lt_succ_iff_lt_or_eq.mp hk with hk | rfl
    · obtain ⟨f, hf, hfp⟩ := h k hk p hp
      exact ⟨f, List.mem_append_left _ hf, hfp⟩
    · obtain rfl := Option.mem_unique hswap hp
      exact ⟨_, List.mem_append_right _ (List.mem_singleton.mpr rfl), rfl, rfl⟩

theorem codeCursor_parseFunctionBody (s : RewriterState) (b : FuncBody) :
    (env.parseFunctionBody s b).1.codeCursor = s.codeCursor + 1 := by
  cases hswap : env.swapFor s.codeCursor with
  | none => rw [env.parseFunctionBody_none hswap]
  | some p => rw [env.parseFunctionBody_some hswap]

theorem codeCursor_hook {after before : Option SectionId}
    (hhook : env.reencoder.intersperseSectionHook s out after before = (s', out')) : s'.codeCursor = s.codeCursor :=
  hook_keeps (P := fun s' => s'.codeCursor = s.codeCursor) (fun _ _ _ h => h) hhook rfl

theorem codeCursor_bodies {bs bs' : List FuncBody} (hbodies : env.reencoder.Bodies s bs s' bs') :
    s'.codeCursor = s.codeCursor + bs.length := by
  induction hbodies with
  | nil => rfl
  | @cons s s' b bs bs' _ ih =>
    have hstep : (env.reencoder.parseFunctionBody s b).1.codeCursor = s.codeCursor + 1 :=
      codeCursor_parseFunctionBody s b
    rw [ih, hstep, List.length_cons]
    omega

theorem codeCursor_encodes {sec sec' : Section} (hencodes : env.reencoder.Encodes s sec s' sec') :
    s'.codeCursor = s.codeCursor + (Module.code [sec]).length := by
  cases hencodes with
  | @code _ bs _ hbodies =>
    rw [show Module.code [.code bs] = bs by simp [Module.code]]
    exact codeCursor_bodies hbodies
  | custom | type | «import» => rfl
  | other hid =>
    cases sec with
    | code bs => exact absurd hid (by simp [Section.id])
    | _ => rfl

/-- The cursor counts the bodies. -/
theorem codeCursor_walks (hwalks : env.reencoder.Walks s out m s' out') :
    s'.codeCursor = s.codeCursor + m.code.length := by
  induction hwalks with
  | finish hhook => exact codeCursor_hook hhook
  | @step s s₁ s' out out₁ out' sec rest hwrites _ ih =>
    have hstep : s₁.codeCursor = s.codeCursor + (Module.code [sec]).length := by
      cases hwrites with
      | custom hencodes => exact codeCursor_encodes hencodes
      | hookFirst hhook hencodes => rw [codeCursor_encodes hencodes, codeCursor_hook hhook]
      | hookLast hencodes hhook => rw [codeCursor_hook hhook, codeCursor_encodes hencodes]
    rw [ih, hstep, Nat.add_assoc, ← List.length_append, ← Module.code_append, List.singleton_append]

theorem recordsUpTo_walks (hwalks : env.reencoder.Walks RewriterState.init out m s out') {k : Nat}
    (hk : k < m.code.length) {p : FuncInfo × UInt64 × FuncBody} (hp : env.swapFor k = some p) :
    ∃ f ∈ s.swapped, f.fingerprint = p.2.1 ∧ f.functionIndex = env.numFunctionImports + UInt32.ofNat k := by
  have hinit : RecordsUpTo env RewriterState.init := by
    intro k hk
    exact absurd hk (Nat.not_lt_zero k)
  have hrun : RecordsUpTo env s := walks_keeps (fun _ b h => h.body b) (fun _ _ _ h => h) hwalks hinit
  refine hrun k ?_ p hp
  rw [codeCursor_walks hwalks, show RewriterState.init.codeCursor = 0 from rfl, Nat.zero_add]
  exact hk

end TensorWasm.Jit
