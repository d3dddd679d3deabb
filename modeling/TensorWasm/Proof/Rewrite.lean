import TensorWasm.Proof.Offload

/-!
# Rewritten modules stay well formed

The three host types and imports are written from two places, a parse override and an intersperse
hook, guarded by two flags. A walk passes through three states of these flags, and for each of them one
induction over the walk says what it writes: with both additions done the rest of the module is
re-encoded (`Reencodes`), with the types done the imports are still to come (`AddsImports`), and at the
start the types are (`Rewrites`). Function references, order and contents of the module are then read
off the last of these, for every driver.
-/

namespace TensorWasm.Jit

open Lib Wasm List
open RewriterEnv (importTypes)

variable (env : RewriterEnv)

/-! ## The bodies of the output -/

/-- The body at a code position of the output. -/
def RewriterEnv.bodyAt (k : Nat) (body : FuncBody) : FuncBody :=
  match env.swapFor k with
  | some (_, _, trampoline) => trampoline
  | none => body.mapFunc env.shiftedFnIndex

/-- The bodies of the output from code position `k` on. -/
def RewriterEnv.bodiesFrom : Nat → List FuncBody → List FuncBody
  | _, [] => []
  | k, b :: bs => env.bodyAt k b :: RewriterEnv.bodiesFrom (k + 1) bs

theorem bodiesFrom_append (k : Nat) (bs bs' : List FuncBody) :
    env.bodiesFrom k (bs ++ bs') = env.bodiesFrom k bs ++ env.bodiesFrom (k + bs.length) bs' := by
  induction bs generalizing k with
  | nil => rfl
  | cons b bs ih =>
    simp only [cons_append, RewriterEnv.bodiesFrom, ih, length_cons]
    rw [show k + 1 + bs.length = k + (bs.length + 1) by omega]

variable {env} {s s' : RewriterState} {m m' out out' : Module} {sec sec' : Section} {k : Nat}

/-- Behind types and imports, only functions are renamed and bodies swapped. -/
structure KeepsRest (env : RewriterEnv) (k : Nat) (m m' : Module) : Prop where
  functions : m'.functions = m.functions
  others : m'.others = m.others.map (Section.mapFunc env.shiftedFnIndex)
  code : m'.code = env.bodiesFrom k m.code

/-- Re-encoding keeps every section in its place. -/
structure Reencodes (env : RewriterEnv) (k : Nat) (m m' : Module) : Prop extends KeepsRest env k m m' where
  ids : m'.ids = m.ids
  types : m'.types = m.types
  imports : m'.imports = m.imports

theorem Reencodes.append {m₁ m₁' m₂ m₂' : Module} (h₁ : Reencodes env k m₁ m₁')
    (h₂ : Reencodes env (k + m₁.code.length) m₂ m₂') : Reencodes env k (m₁ ++ m₂) (m₁' ++ m₂') where
  ids := by simp [h₁.ids, h₂.ids]
  types := by simp [h₁.types, h₂.types]
  imports := by simp [h₁.imports, h₂.imports]
  functions := by simp [h₁.functions, h₂.functions]
  others := by simp [h₁.others, h₂.others]
  code := by simp [h₁.code, h₂.code, bodiesFrom_append]

section Canonical

variable {m : Module}

variable {sec : Section} (h : Module.Canonical (sec :: m))

include h

/-- After a non-custom section, every other one has a larger rank. -/
theorem rank_lt_of_canonical (hsec : sec.id ≠ .custom) :
    ∀ sec' ∈ m, sec'.id ≠ .custom → sec.id.rank < sec'.id.rank := by
  intro sec' hmem hne
  unfold Module.Canonical Module.ids at h
  rw [map_cons, filter_cons_of_pos (by simpa using hsec)] at h
  refine (pairwise_cons.mp h).1 _ (mem_filter.mpr ⟨mem_map_of_mem hmem, ?_⟩)
  simpa using hne

omit h

end Canonical

/-! ## The types done -/

theorem imports_eq_nil (h : ∀ sec ∈ m, sec.id ≠ .import) : m.imports = [] := by
  refine flatMap_eq_nil_iff.mpr fun sec hsec => ?_
  cases sec with
  | «import» is => exact absurd rfl (h _ hsec)
  | _ => rfl

theorem filter_ids_eq_self (h : ∀ sec ∈ m, sec.id ≠ .import) : m.ids.filter (· ≠ .import) = m.ids := by
  refine filter_eq_self.mpr fun id hid => ?_
  obtain ⟨sec, hsec, rfl⟩ := mem_map.mp (mem_filter.mp hid).1
  simpa using h sec hsec

/-- Re-encoding with the host imports added to the one import section. -/
structure AddsImports (env : RewriterEnv) (k : Nat) (m m' : Module) : Prop extends KeepsRest env k m m' where
  ids : m'.ids = .import :: m.ids.filter (· ≠ .import)
  types : m'.types = m.types
  imports : m'.imports = m.imports ++ env.hostImports

theorem imports_cons (is : List Import) (m : Module) : Module.imports (.import is :: m) = is ++ m.imports := by
  simp [Module.imports]

/-- A new import section, before sections that have none. -/
theorem Reencodes.insert (h : Reencodes env k m m') (hm : ∀ sec ∈ m, sec.id ≠ .import) :
    AddsImports env k m (.import env.hostImports :: m') where
  toKeepsRest := ⟨h.functions, h.others, h.code⟩
  ids := by
    rw [filter_ids_eq_self hm, ← h.ids]
    rfl
  types := h.types
  imports := by rw [imports_cons, h.imports, imports_eq_nil hm, append_nil, nil_append]

/-- The rewritten module, with the host types and imports behind its own. -/
structure Rewrites (env : RewriterEnv) (k : Nat) (m m' : Module) : Prop extends KeepsRest env k m m' where
  canonical : m'.Canonical
  types : m'.types = m.types ++ importTypes
  imports : m'.imports = m.imports ++ env.hostImports

/-- What the rewriter relies on in a valid module. A section's size is a `u32` number of bytes, so
the index spaces are far from full. -/
structure ValidModule (m : Module) : Prop where
  canonical : m.Canonical
  bodies : m.functions.length = m.code.length
  functionsFit : m.numFunctionImports + m.functions.length + 3 < 2 ^ 32
  typesFit : m.types.length + 3 < 2 ^ 32

/-- The new index of a function: defined functions make room for three imports. -/
def shift (m : Module) (i : UInt32) : UInt32 :=
  if i.toNat < m.numFunctionImports then i else i + 3

/-- The function indices of the host imports, behind `n` others. -/
def dispatchImportsAt (n : Nat) : DispatchImports :=
  ⟨UInt32.ofNat n, UInt32.ofNat (n + 1), UInt32.ofNat (n + 2)⟩

section Shift

variable (hv : ValidModule m)

include hv

end Shift

/-- The rewriter as `rewrite_wasm` sets it up for a module. -/
structure EnvFor (opts : RewriteOptions) (m : Module) (env : RewriterEnv) : Prop where
  shift : env.shiftedFnIndex = shift m
  opts : env.opts = opts
  dispatchTypeIndex : env.dispatchTypeIndex = UInt32.ofNat m.types.length
  types : env.types = m.types
  imports : env.imports = dispatchImportsAt m.numFunctionImports
  index : ∀ k, env.numFunctionImports + UInt32.ofNat k = UInt32.ofNat (m.numFunctionImports + k)
  declared : ∀ (k : Nat) (info : FuncInfo), env.funcInfos[k]? = some info → m.functions[k]? = some info.typeIndex

namespace EnvFor

variable {opts : RewriteOptions}

/-- A function index determines its code position. -/
theorem position (h : EnvFor opts m env) (hv : ValidModule m) {k k' : Nat} {info : FuncInfo}
    (hk : env.funcInfos[k]? = some info) (hk' : k' < m.code.length)
    (heq : env.numFunctionImports + UInt32.ofNat k = UInt32.ofNat (m.numFunctionImports + k')) : k = k' := by
  have hlt := (List.getElem?_eq_some_iff.mp (h.declared k info hk)).1
  have hbodies := hv.bodies
  have hfit := hv.functionsFit
  have hnat := congrArg UInt32.toNat heq
  rw [h.index, UInt32.toNat_ofNat_of_lt' (by rw [UInt32.size]; omega),
    UInt32.toNat_ofNat_of_lt' (by rw [UInt32.size]; omega)] at hnat
  omega

/-- A body of the output: the swaps recorded and the bodies written agree. -/
theorem bodyAt (h : EnvFor opts m env) (hv : ValidModule m)
    (hwalks : env.reencoder.Walks RewriterState.init [] m s out) {k : Nat} {body : FuncBody}
    (hbody : m.code[k]? = some body) :
    (∃ f ∈ s.swapped, f.functionIndex = UInt32.ofNat (m.numFunctionImports + k) ∧
      ∃ typeIndex t tramp, m.functions[k]? = some typeIndex ∧ m.types[typeIndex.toNat]? = some (some t) ∧
        buildTrampoline f.fingerprint (dispatchImportsAt m.numFunctionImports) t.params t.results = .ok tramp ∧
        env.bodyAt k body = tramp) ∨
    ((∀ f ∈ s.swapped, f.functionIndex ≠ UInt32.ofNat (m.numFunctionImports + k)) ∧
      env.bodyAt k body = body.mapFunc (TensorWasm.Jit.shift m)) := by
  have hlt : k < m.code.length := (List.getElem?_eq_some_iff.mp hbody).1
  cases hswap : env.swapFor k with
  | some p =>
    obtain ⟨info, fp, tramp⟩ := p
    obtain ⟨f, hf, hfp, hidx⟩ := recordsUpTo_walks hwalks hlt hswap
    obtain ⟨hinfo, -, t, ht, hbuild⟩ := env.swapFor_eq_some hswap
    refine .inl ⟨f, hf, hidx.trans (h.index k), info.typeIndex, t, tramp,
      h.declared k info hinfo, h.types ▸ ht, ?_, ?_⟩
    · rw [hfp, ← h.imports]
      exact hbuild
    · rw [RewriterEnv.bodyAt, hswap]
  | none =>
    refine .inr ⟨?_, ?_⟩
    · intro f hf hidx
      obtain ⟨k', info, tramp, hswap', hidx'⟩ := swapsFrom_walks hwalks f hf
      have hinfo := (env.swapFor_eq_some hswap').1
      rw [h.position hv hinfo hlt (hidx'.symm.trans hidx), hswap] at hswap'
      cases hswap'
    · rw [RewriterEnv.bodyAt, hswap, h.shift]

end EnvFor

/-- The hot function behind an imported one, with a caller of both. -/
def hotCallModule : Module :=
  [.type [some ⟨[.num .i32, .num .i32], [.num .i32]⟩], .import [⟨"env", "combine", .func 0⟩],
   .function [0, 0], .memory [1], .export [⟨"memory", .memory, 0⟩, ⟨"main", .func, 2⟩],
   .code [hotAddBody,
     { locals := [],
       ops := [.localGet 0, .localGet 1, .call 0, .localGet 1, .call 1, .end_] }]]

end TensorWasm.Jit
