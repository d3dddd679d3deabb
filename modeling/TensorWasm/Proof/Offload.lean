import TensorWasm.Proof.Swaps

/-!
# What a swapped function loses

A swap is decided by a ratio and the presence of a `loop`; the kernel is built by dropping every
operator outside five classes. This file follows one swapped function through both passes
(`swapped_inv`) and compares its body with the blueprint stored for it: the operators the blueprint
can stand for are exactly six (`isKernelOperator`), and every swapped body contains a `loop`, which
is not one of them.
-/

namespace TensorWasm.Jit

open Lib Wasm List

/-! ## The stored blueprint -/

/-- The shapes the rewriter's classification produces. -/
def IsKernelShape (p : ElemType × UInt32) : Prop := (p.1 = .f32 ∨ p.1 = .i32) ∧ p.2 = 4

/-- Inversion of the classification on the classes the lowering keeps. -/
inductive Kept : Operator → Op → Prop where
  | addF32 : Kept (.simdAdd .f32x4) (.v128Add .f32 4)
  | addI32 : Kept (.simdAdd .i32x4) (.v128Add .i32 4)
  | mulF32 : Kept (.simdMul .f32x4) (.v128Mul .f32 4)
  | mulI32 : Kept (.simdMul .i32x4) (.v128Mul .i32 4)
  | v128Load (m : MemArg) : Kept (.v128Load m) .load
  | v128Store (m : MemArg) : Kept (.v128Store m) .store
  | load (t : NumType) (m : MemArg) : Kept (.load t m) .load
  | store (t : NumType) (m : MemArg) : Kept (.store t m) .store

variable {op : Operator}

theorem kept_of_isLowerable (h : isLowerable (opToDetectorOp op) = true) : Kept op (opToDetectorOp op) := by
  cases op with
  | v128Load m => exact .v128Load m
  | v128Store m => exact .v128Store m
  | load t m => exact .load t m
  | store t m => exact .store t m
  | simdAdd s =>
    cases s with
    | f32x4 => exact .addF32
    | i32x4 => exact .addI32
    | _ => exact Bool.noConfusion h
  | simdMul s =>
    cases s with
    | f32x4 => exact .mulF32
    | i32x4 => exact .mulI32
    | _ => exact Bool.noConfusion h
  | _ => exact Bool.noConfusion h

theorem isKernelShape_of_kept {c : Op} {shape : ElemType × UInt32} (h : Kept op c)
    (hs : c.shape = some shape) : IsKernelShape shape := by
  cases h with
  | addF32 | mulF32 => exact Option.some.inj hs ▸ ⟨.inl rfl, rfl⟩
  | addI32 | mulI32 => exact Option.some.inj hs ▸ ⟨.inr rfl, rfl⟩
  | v128Load | v128Store | load | store => exact absurd hs (by simp [Op.shape])

theorem isKernelShape_scan {block : String} {ops : List Op} {shape r : Option (ElemType × UInt32)}
    (hops : ∀ op ∈ ops, ∀ p, op.shape = some p → IsKernelShape p) (hshape : ∀ p, shape = some p → IsKernelShape p)
    (h : scanShape block ops shape = .ok r) : ∀ p, r = some p → IsKernelShape p := by
  induction ops generalizing shape with
  | nil =>
    cases h
    exact hshape
  | cons op ops ih =>
    have hrest : ∀ op ∈ ops, ∀ p, op.shape = some p → IsKernelShape p :=
      fun o ho => hops o (by simp [ho])
    unfold scanShape at h
    cases hop : op.shape with
    | none =>
      simp only [hop] at h
      exact ih hrest hshape h
    | some cur =>
      cases shape with
      | none =>
        simp only [hop] at h
        refine ih hrest ?_ h
        intro p hp
        cases hp
        exact hops op (by simp) cur hop
      | some seen =>
        simp only [hop] at h
        split at h
        · cases h
        · exact ih hrest hshape h

/-- The operators a blueprint op can stand for: the four lane-wise operations and the full-width
vector accesses. -/
def isKernelOperator : Operator → Bool
  | .simdAdd .f32x4 | .simdAdd .i32x4 | .simdMul .f32x4 | .simdMul .i32x4
  | .v128Load _ | .v128Store _ => true
  | _ => false

def isMemoryAccess : Operator → Bool
  | .v128Load _ | .v128Store _ | .load .. | .store .. => true
  | _ => false

/-- A blueprint op computes what the operator computes: the same lane-wise operation, or an access
of the same number of bytes. -/
def computes : TensorWasmOp → Operator → Bool
  | .vecAdd .f32 n, .simdAdd .f32x4 | .vecAdd .i32 n, .simdAdd .i32x4
  | .vecMul .f32 n, .simdMul .f32x4 | .vecMul .i32 n, .simdMul .i32x4 => n == 4
  | .loadUnified elem n, .v128Load _ | .storeUnified elem n, .v128Store _ =>
    elem.byteWidth * n.toNat == 16
  | .loadUnified elem n, .load t _ | .storeUnified elem n, .store t _ =>
    elem.byteWidth * n.toNat == NumType.size t
  | _, _ => false

/-- An op of a blueprint built by the rewriter stands only for kernel operators, and for the one it
was lowered from if that is one. -/
theorem computes_lowerOpOf {block : String} {mem : ElemType × UInt32} (hmem : IsKernelShape mem)
    {c : Op} (hop : Kept op c) {lo : TensorWasmOp} (h : lowerOpOf block mem c = .ok lo) :
    (∀ op', computes lo op' = true → isKernelOperator op' = true) ∧
      (isKernelOperator op = true → computes lo op = true) := by
  obtain ⟨elem, n⟩ := mem
  obtain ⟨helem, hn⟩ := hmem
  simp only at helem hn
  subst hn
  cases hop with
  | addF32 | addI32 | mulF32 | mulI32 =>
    cases h
    refine ⟨fun op' h' => ?_, fun _ => rfl⟩
    cases op' with
    | simdAdd s | simdMul s => cases s <;> first | rfl | exact Bool.noConfusion h'
    | _ => exact Bool.noConfusion h'
  | v128Load m | v128Store m =>
    cases h
    refine ⟨fun op' h' => ?_, fun _ => ?_⟩
    · rcases helem with rfl | rfl <;> cases op' with
      | v128Load | v128Store => rfl
      | load t | store t => cases t <;> exact Bool.noConfusion h'
      | _ => exact Bool.noConfusion h'
    · rcases helem with rfl | rfl <;> rfl
  | load t m | store t m =>
    cases h
    refine ⟨fun op' h' => ?_, fun hk => Bool.noConfusion hk⟩
    rcases helem with rfl | rfl <;> cases op' with
    | v128Load | v128Store => rfl
    | load t | store t => cases t <;> exact Bool.noConfusion h'
    | _ => exact Bool.noConfusion h'

/-! ## Positions in a filtered list -/

section FilterRank

variable {α : Type} {keep : α → Bool}

/-- How many kept elements precede a position. -/
def keptBefore (keep : α → Bool) (xs : List α) (p : Nat) : Nat := ((xs.take p).filter keep).length

theorem getElem?_filter_keptBefore {xs : List α} {p : Nat} {x : α} (hx : xs[p]? = some x)
    (hk : keep x = true) : (xs.filter keep)[keptBefore keep xs p]? = some x := by
  induction xs generalizing p with
  | nil => simp at hx
  | cons y xs ih =>
    cases p with
    | zero =>
      cases hx
      simp [keptBefore, hk]
    | succ p =>
      have hih := ih (p := p) (by simpa using hx)
      unfold keptBefore at hih ⊢
      by_cases hy : keep y = true
      · simpa [filter_cons, hy] using hih
      · simpa [filter_cons, hy] using hih

theorem keptBefore_lt {xs : List α} {p q : Nat} {x : α} (hx : xs[p]? = some x)
    (hk : keep x = true) (hpq : p < q) : keptBefore keep xs p < keptBefore keep xs q := by
  have hsucc : xs.take (p + 1) = xs.take p ++ [x] := by
    rw [take_add_one, hx]
    rfl
  have hle : ((xs.take (p + 1)).filter keep).length ≤ keptBefore keep xs q := by
    have hpre : xs.take (p + 1) = (xs.take q).take (p + 1) := by
      rw [take_take, Nat.min_eq_left hpq]
    rw [hpre]
    exact ((take_sublist _ _).filter keep).length_le
  rw [hsucc, filter_append, length_append] at hle
  simp only [filter_cons, hk, if_true, filter_nil, length_singleton] at hle
  exact hle

end FilterRank

/-! ## Soundness of a swap -/

/-- The blueprint stands for the body: every position that affects anything is represented, in
order, by a blueprint op that computes the same, and its memory accesses use the kernel's linear
cursor. What affects results, memory, globals, control flow or calls, and which addresses are the
linear cursor's, is left to the two predicates. -/
def OffloadSound (affects linear : Nat → Prop) (ops : List Operator) (bp : TensorWasmKernelBlueprint) : Prop :=
  ∃ ι : Nat → Nat,
    (∀ p q, affects p → affects q → p < q → q < ops.length → ι p < ι q) ∧
    ∀ p op, ops[p]? = some op → affects p →
      (∃ lo, bp.ops[ι p]? = some lo ∧ computes lo op = true) ∧ (isMemoryAccess op = true → linear p)

/-- Every affecting operator is one a blueprint op can stand for, at a linear address if it has
one. -/
def KernelOnly (affects linear : Nat → Prop) (ops : List Operator) : Prop :=
  ∀ p op, ops[p]? = some op → affects p → isKernelOperator op = true ∧ (isMemoryAccess op = true → linear p)

def keepOperator (op : Operator) : Bool := isLowerable (opToDetectorOp op)

theorem keepOperator_of_isKernelOperator (h : isKernelOperator op = true) : keepOperator op = true := by
  cases op with
  | v128Load | v128Store => rfl
  | simdAdd s | simdMul s => cases s <;> first | rfl | exact Bool.noConfusion h
  | _ => exact Bool.noConfusion h

theorem offloadSound_iff {cfg : DetectorConfig} {body : FuncBody} {pre : PreFuncInfo} (hd : Describes cfg body pre)
    {bp : TensorWasmKernelBlueprint} (h : lowerBlock (slotBlock pre) = .ok bp) (affects linear : Nat → Prop) :
    OffloadSound affects linear body.ops bp ↔ KernelOnly affects linear body.ops := by
  obtain ⟨mem, hmem, h⟩ := bind_eq_ok.mp h
  obtain ⟨los, hlos, h⟩ := bind_eq_ok.mp h
  cases h
  have hops : (slotBlock pre).ops = (body.ops.filter keepOperator).map opToDetectorOp := by
    rw [slotBlock, hd.ops, filter_map]
    rfl
  have hkept : ∀ op ∈ body.ops.filter keepOperator, Kept op (opToDetectorOp op) :=
    fun op hop => kept_of_isLowerable (mem_filter.mp hop).2
  have hshape : IsKernelShape mem := by
    obtain ⟨shape, hscan, hmem⟩ := bind_eq_ok.mp hmem
    cases hmem
    have hall : ∀ p, shape = some p → IsKernelShape p := by
      refine isKernelShape_scan ?_ (fun p hp => absurd hp (by simp)) hscan
      intro c hc p hp
      rw [hops] at hc
      obtain ⟨op, hop, rfl⟩ := mem_map.mp hc
      exact isKernelShape_of_kept (hkept op hop) hp
    cases hs : shape with
    | none => exact ⟨.inl rfl, rfl⟩
    | some p => exact hall p hs
  -- the blueprint's ops line up with the kept operators
  have hrel : List.Forall₂ (fun op lo => lowerOpOf (slotBlock pre).name mem (opToDetectorOp op) =
      .ok lo) (body.ops.filter keepOperator) los := by
    have := mapM_eq_ok hlos
    rw [hops] at this
    exact forall₂_map_left_iff.mp this
  constructor
  · rintro ⟨ι, -, hι⟩ p op hop haff
    obtain ⟨⟨lo, hlo, hcomp⟩, hlin⟩ := hι p op hop haff
    refine ⟨?_, hlin⟩
    obtain ⟨hlt, rfl⟩ := List.getElem?_eq_some_iff.mp hlo
    have hlt' : ι p < (body.ops.filter keepOperator).length := by
      rw [hrel.length_eq]
      exact hlt
    have hlow := (forall₂_iff_get.mp hrel).2 (ι p) hlt' hlt
    exact (computes_lowerOpOf hshape (hkept _ (getElem_mem hlt')) hlow).1 op hcomp
  · intro hk
    refine ⟨keptBefore keepOperator body.ops, ?_, ?_⟩
    · intro p q hp _ hpq hq
      have hget : body.ops[p]? = some body.ops[p] := List.getElem?_eq_getElem (by omega)
      exact keptBefore_lt hget (keepOperator_of_isKernelOperator (hk p _ hget hp).1) hpq
    · intro p op hop haff
      obtain ⟨hker, hlin⟩ := hk p op hop haff
      refine ⟨?_, hlin⟩
      have hget := getElem?_filter_keptBefore hop (keepOperator_of_isKernelOperator hker)
      obtain ⟨hlt, heq⟩ := List.getElem?_eq_some_iff.mp hget
      have hlt' : keptBefore keepOperator body.ops p < los.length := by
        rw [← hrel.length_eq]
        exact hlt
      have hlow := (forall₂_iff_get.mp hrel).2 _ hlt hlt'
      simp only [get_eq_getElem, heq] at hlow
      have hmem' : op ∈ body.ops.filter keepOperator := heq ▸ getElem_mem hlt
      exact ⟨_, List.getElem?_eq_getElem hlt', (computes_lowerOpOf hshape (hkept op hmem') hlow).2 hker⟩

variable {driver : Driver RewriterState} {blake3 : Bytes → Bytes} {m : Module} {opts : RewriteOptions}
  {out : RewriteOutcome} {puts : List (CacheKey × CachedKernel)} {f : OffloadedFunction}

/-- What is known about a recorded swap: its body, its description and its kernel. -/
theorem swapped_inv (h : rewriteWasm driver blake3 m opts = .ok (out, puts)) (hf : f ∈ out.offloadedFunctions) :
    ∃ k body pre kernel, m.code[k]? = some body ∧ Describes opts.detector body pre ∧
      f.functionIndex = UInt32.ofNat m.numFunctionImports + UInt32.ofNat k ∧
      emitForSlot blake3 pre = some kernel ∧ kernel.fingerprint = f.fingerprint ∧
      (CacheKey.forTenant opts.tenantId f.fingerprint opts.smVersion,
        CachedKernel.new blake3 f.fingerprint kernel.ptx) ∈ puts := by
  obtain ⟨a, s, ha, hwalks, hswapped, rfl⟩ := rewriteWasm_eq_ok h
  rw [hswapped] at hf
  obtain ⟨st, hst, -, himports, hinfos⟩ := analysed_analyse ha
  obtain ⟨k, info, tramp, hswap, hidx⟩ := swapsFrom_walks hwalks f hf
  obtain ⟨hinfo, hfp, -⟩ := RewriterEnv.swapFor_eq_some _ hswap
  have hinfo' : a.funcInfos[k]? = some info := hinfo
  rw [hinfos, List.getElem?_map] at hinfo'
  obtain ⟨pre, hpre, rfl⟩ := Option.map_eq_some_iff.mp hinfo'
  obtain ⟨kernel, hkernel, hkfp⟩ := Option.map_eq_some_iff.mp hfp
  obtain ⟨hlt, rfl⟩ := List.getElem?_eq_some_iff.mp hpre
  have hlt' : k < m.code.length := by
    rw [hst.bodies.length_eq]
    exact hlt
  refine ⟨k, m.code[k], st.preInfos[k], kernel, List.getElem?_eq_getElem hlt', ?_, ?_, hkernel, hkfp, ?_⟩
  · exact (forall₂_iff_get.mp hst.bodies).2 k hlt' hlt
  · rw [← hst.imports, ← himports]
    exact hidx
  · refine mem_filterMap.mpr ⟨_, mem_of_getElem? hinfo, ?_⟩
    show (emitForSlot blake3 st.preInfos[k]).map _ = _
    rw [show emitForSlot blake3 st.preInfos[k] = some kernel from hkernel, ← hkfp]
    rfl

/-- An offload verdict means the body has a `loop`. -/
theorem exists_loop {cfg : DetectorConfig} {body : FuncBody} {pre : PreFuncInfo} (hd : Describes cfg body pre)
    (h : pre.verdict = .offload) : ∃ (p : Nat) (t : BlockType), body.ops[p]? = some (.loop t) := by
  rw [hd.verdict] at h
  obtain ⟨n, hn, -⟩ := tripCount_of_classifyOps h
  rw [hd.trip] at hn
  have hany : body.ops.any isLoop = true := by
    by_contra hno
    rw [if_neg hno] at hn
    cases hn
  obtain ⟨op, hop, hloop⟩ := any_eq_true.mp hany
  obtain ⟨p, hp⟩ := List.getElem?_of_mem hop
  cases op with
  | loop t => exact ⟨p, t, hp⟩
  | _ => exact Bool.noConfusion hloop

/-- **The blueprint stored for a swapped function stands for its body exactly when the body affects
nothing except through kernel operators**; and since every swapped body has a `loop`, never once
`loop` counts as control flow. -/
theorem swapped_offloadSound_iff (h : rewriteWasm driver blake3 m opts = .ok (out, puts))
    (hf : f ∈ out.offloadedFunctions) :
    ∃ k body bp ptx, m.code[k]? = some body ∧
      f.functionIndex = UInt32.ofNat m.numFunctionImports + UInt32.ofNat k ∧
      emit bp = .ok ptx ∧ f.fingerprint = bp.fingerprint blake3 ∧
      (CacheKey.forTenant opts.tenantId f.fingerprint opts.smVersion,
        CachedKernel.new blake3 f.fingerprint ptx) ∈ puts ∧
      ∀ affects linear : Nat → Prop,
        (OffloadSound affects linear body.ops bp ↔ KernelOnly affects linear body.ops) ∧
        ((∀ p t, body.ops[p]? = some (.loop t) → affects p) → ¬ OffloadSound affects linear body.ops bp) := by
  obtain ⟨k, body, pre, kernel, hbody, hd, hidx, hemit, hfp, hput⟩ := swapped_inv h hf
  obtain ⟨hverdict, -, hlower, hptx, hkfp⟩ := emitForSlot_eq_some hemit
  refine ⟨k, body, kernel.blueprint, kernel.ptx, hbody, hidx, hptx, hfp ▸ hkfp, hput, ?_⟩
  intro affects linear
  have hiff := offloadSound_iff hd hlower affects linear
  refine ⟨hiff, fun hloops hsound => ?_⟩
  obtain ⟨p, t, hp⟩ := exists_loop hd hverdict
  have := (hiff.mp hsound p _ hp (hloops p t hp)).1
  exact Bool.noConfusion this

/-! ## A swapped function whose result is lost -/

/-- `local.set $v (i32x4.add (local.get $v) (local.get $v))`. -/
def doubleLocal : List Operator := [.localGet 2, .localGet 2, .simdAdd .i32x4, .localSet 2]

/-- `add(a, b) = a + b` with a vector loop in front, the hot fixture of the rewriter's tests. -/
def hotAddBody : FuncBody :=
  { locals := [(1, .v128)],
    ops := [.loop .empty] ++ (List.replicate 8 doubleLocal).flatten ++
      [.end_, .localGet 0, .localGet 1, .add .i32, .end_] }

def hotAddModule : Module :=
  [.type [some ⟨[.num .i32, .num .i32], [.num .i32]⟩], .function [0], .memory [1],
   .export [⟨"memory", .memory, 0⟩, ⟨"add", .func, 0⟩], .code [hotAddBody]]

/-- The thresholds those tests use: a ratio of 0.05. -/
def tunedOptions : RewriteOptions :=
  { RewriteOptions.default with
    detector := { ratioMeets := fun v n => decide (n ≤ 20 * v), minTripCount := 64 } }

/-- A stand-in for BLAKE3; nothing below depends on the digest. -/
def zeroHash : Bytes → Bytes := fun _ => List.replicate 32 0

theorem hotAdd_not_offloadSound :
    ∃ out puts f bp, rewriteWasm (plainDriver _) zeroHash hotAddModule tunedOptions = .ok (out, puts) ∧
      f ∈ out.offloadedFunctions ∧ f.fingerprint = bp.fingerprint zeroHash ∧
      ¬ OffloadSound (fun _ => True) (fun _ => True) hotAddBody.ops bp := by
  obtain ⟨k, body, bp, ptx, hbody, -, -, hfp, -, hiff⟩ :=
    swapped_offloadSound_iff (show rewriteWasm (plainDriver _) zeroHash hotAddModule tunedOptions = .ok (_, _) from rfl)
      mem_cons_self
  cases k with
  | zero =>
    cases hbody
    exact ⟨_, _, _, bp, rfl, mem_cons_self, hfp, (hiff _ _).2 fun _ _ _ => trivial⟩
  | succ k => exact absurd hbody (by simp [hotAddModule, Module.code])

/-- What the analysis records about the body. -/
def hotAddSlot : PreFuncInfo :=
  { typeIndex := 0, verdict := .offload, opCount := 38, funcIndexInGlobalSpace := 0,
    tripGuess := some 128, detectorOps := hotAddBody.ops.map opToDetectorOp, hasMemory := true,
    signatureOk := true }

/-- **The result of `add` is computed by an instruction the kernel does not have.** The function is
swapped; its `i32.add` is what pushes the result; the stored blueprint is eight vector additions. -/
theorem hotAdd_drops_result :
    ∃ out puts f kernel, rewriteWasm (plainDriver _) zeroHash hotAddModule tunedOptions = .ok (out, puts) ∧
      f ∈ out.offloadedFunctions ∧ f.functionIndex = 0 ∧
      emitForSlot zeroHash hotAddSlot = some kernel ∧ kernel.fingerprint = f.fingerprint ∧
      kernel.blueprint.ops = List.replicate 8 (.vecAdd .i32 4) ∧
      hotAddBody.ops[36]? = some (.add .i32) ∧ hotAddBody.ops[37]? = some .end_ ∧
      ∀ lo ∈ kernel.blueprint.ops, computes lo (.add .i32) = false := by
  refine ⟨_, _, _, _, rfl, mem_cons_self, rfl, rfl, rfl, rfl, rfl, rfl, ?_⟩
  intro lo hlo
  obtain rfl := eq_of_mem_replicate (n := 8) hlo
  rfl

end TensorWasm.Jit
