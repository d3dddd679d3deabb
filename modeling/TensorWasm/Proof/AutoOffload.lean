import TensorWasm.Exec.AutoOffload
import TensorWasm.Proof.Rewrite

/-!
# The consultation and the rewriter

Both analyses classify every body. The classifiers differ on one operator, which no verdict depends
on, so the verdicts agree body by body. The indices do not: the rewriter counts imported functions,
as a module's function index space does, and the consultation starts at the first body.
-/

namespace TensorWasm.Exec

open Lib Wasm Jit List
open AnalyseState (init)

/-! ## One body -/

/-- The verdict the rewriter's pass gives to a body. -/
def rewriteVerdict (cfg : DetectorConfig) (body : FuncBody) : DetectorVerdict :=
  classifyOps (body.ops.map Jit.opToDetectorOp) (if body.ops.any isLoop then some 128 else none) cfg

/-- The classifiers agree on what is a SIMD op. -/
theorem isV128_opToDetectorOp (op : Operator) : (opToDetectorOp op).isV128 = (Jit.opToDetectorOp op).isV128 := by
  cases op with
  | simdAdd s | simdMul s => cases s <;> rfl
  | _ => rfl

/-- A verdict depends on the number of ops and of SIMD ops only. -/
theorem classifyOps_congr {ops ops' : List Op} (h : ops.map Op.isV128 = ops'.map Op.isV128) (trip : Option Nat)
    (cfg : DetectorConfig) : classifyOps ops trip cfg = classifyOps ops' trip cfg := by
  have hlength : ops.length = ops'.length := by
    simpa using congrArg List.length h
  have hcount : (ops.filter Op.isV128).length = (ops'.filter Op.isV128).length := by
    rw [← countP_eq_length_filter, ← countP_eq_length_filter]
    have hmap := congrArg (List.countP id) h
    rwa [countP_map, countP_map] at hmap
  have hempty : ops.isEmpty = ops'.isEmpty := by
    cases ops <;> cases ops' <;> first | rfl | simp at hlength
  unfold classifyOps v128RatioMeets
  rw [hempty, hcount, hlength]

theorem verdict_analyseBody (cfg : DetectorConfig) (funcIdx : UInt32) (body : FuncBody) :
    (analyseBody cfg funcIdx body).verdict = rewriteVerdict cfg body := by
  refine classifyOps_congr ?_ _ cfg
  rw [map_map, map_map]
  exact map_congr_left fun op _ => isV128_opToDetectorOp op

/-! ## The consultation's walk -/

theorem foldl_consultBody (cfg : DetectorConfig) (bodies : List FuncBody) (verdicts : List OffloadVerdict) (k : Nat) :
    bodies.foldl (consultBody cfg) (verdicts, UInt32.ofNat k) =
      (verdicts ++ bodies.mapIdx fun i body => analyseBody cfg (UInt32.ofNat (k + i)) body,
        UInt32.ofNat (k + bodies.length)) := by
  induction bodies generalizing verdicts k with
  | nil => simp
  | cons body bodies ih =>
    have hnext : consultBody cfg (verdicts, UInt32.ofNat k) body =
        (verdicts ++ [analyseBody cfg (UInt32.ofNat k) body], UInt32.ofNat (k + 1)) := by
      rw [UInt32.ofNat_add]
      rfl
    rw [foldl_cons, hnext, ih, mapIdx_cons]
    simp [Nat.add_assoc, Nat.add_comm 1]

theorem foldl_consultSection (cfg : DetectorConfig) (m : Module) (verdicts : List OffloadVerdict) (k : Nat) :
    m.foldl (consultSection cfg) (verdicts, UInt32.ofNat k) =
      (verdicts ++ m.code.mapIdx fun i body => analyseBody cfg (UInt32.ofNat (k + i)) body,
        UInt32.ofNat (k + m.code.length)) := by
  induction m generalizing verdicts k with
  | nil => simp [Module.code]
  | cons sec m ih =>
    rw [foldl_cons]
    cases sec with
    | code bodies =>
      have hcode : Module.code (.code bodies :: m) = bodies ++ Module.code m := rfl
      rw [consultSection, foldl_consultBody, ih, hcode, mapIdx_append]
      simp [Nat.add_assoc, Nat.add_comm bodies.length]
    | _ => exact ih verdicts k

/-- One verdict for each body, numbered from zero. -/
theorem analyseWithConfig_eq (m : Module) (cfg : DetectorConfig) :
    analyseWithConfig m cfg = m.code.mapIdx fun k body => analyseBody cfg (UInt32.ofNat k) body := by
  have h := foldl_consultSection cfg m [] 0
  simp only [Nat.zero_add, nil_append] at h
  exact congrArg Prod.fst h

/-! ## The rewriter's walk -/

/-- The section gives the module a memory. -/
def providesMemory : Section → Bool
  | .import is => is.any fun i => match i.ty with
    | .memory _ => true
    | _ => false
  | .memory ms => ms.length > 0
  | _ => false

/-- The module imports or defines a memory. -/
def hasMemory (m : Module) : Bool := m.any providesMemory

theorem hasMemory_foldl_import (is : List Import) (st : AnalyseState) :
    (is.foldl analyseImport st).hasMemory = (st.hasMemory || providesMemory (.import is)) := by
  induction is generalizing st with
  | nil => simp [providesMemory]
  | cons i is ih =>
    rw [foldl_cons, ih]
    cases hty : i.ty <;> simp [analyseImport, providesMemory, hty]

variable {m : Module}

/-- In a canonical module, nothing before a section that goes no later than code is code. -/
theorem code_eq_nil_of_canonical {sec : Section} (hm : Module.Canonical (m ++ [sec]))
    (hcustom : sec.id ≠ .custom) (hrank : sec.id.rank ≤ SectionId.code.rank) : m.code = [] := by
  refine flatMap_eq_nil_iff.mpr ?_
  intro s hs
  cases s with
  | code bodies =>
    unfold Module.Canonical at hm
    rw [Module.ids_append, pairwise_append] at hm
    have hcode : SectionId.code ∈ m.ids :=
      mem_filter.mpr ⟨mem_map.mpr ⟨_, hs, rfl⟩, rfl⟩
    have hlast : sec.id ∈ Module.ids [sec] := by simp [Module.ids, hcustom]
    exact absurd hrank (Nat.not_le.mpr (hm.2.2 _ hcode _ hlast))
  | _ => rfl

/-- What the records say about the module, besides their bodies. -/
structure Gated (m : Module) (st : AnalyseState) : Prop where
  memory : st.hasMemory = hasMemory m
  gates : ∀ (k : Nat) (pre : PreFuncInfo), st.preInfos[k]? = some pre →
    pre.hasMemory = hasMemory m ∧ pre.signatureOk = signatureOk m.types pre.typeIndex ∧
      pre.funcIndexInGlobalSpace = UInt32.ofNat (m.numFunctionImports + k)

variable {cfg : DetectorConfig}

theorem gated_analyseBody {st st' : AnalyseState} {body : FuncBody} (hst : Gated m st)
    (htypes : st.types = m.types)
    (himports : st.numFunctionImports = UInt32.ofNat m.numFunctionImports)
    (h : Jit.analyseBody cfg st body = .ok st') : Gated m st' := by
  obtain ⟨new, rfl, -, -, hmemory, hsignature, hindex⟩ := analyseBody_eq_ok h
  refine ⟨hst.memory, ?_⟩
  intro k pre hk
  rcases getElem?_concat hk with hk | ⟨rfl, rfl⟩
  · exact hst.gates k pre hk
  · refine ⟨hmemory.trans hst.memory, ?_, ?_⟩
    · rw [hsignature, htypes]
    · rw [hindex, himports, UInt32.ofNat_add]

/-- One section. A section that adds types, imports or memories comes before all code, so no record
is there yet. -/
theorem gated_section {sec : Section} {st st' : AnalyseState} (hm : Module.Canonical (m ++ [sec]))
    (hanalysed : Analysed cfg m st) (hst : Gated m st) (h : analyseSection cfg st sec = .ok st') :
    Gated (m ++ [sec]) st' := by
  have hnone : sec.id ≠ .custom → sec.id.rank ≤ SectionId.code.rank → st.preInfos = [] := by
    intro hcustom hrank
    have hbodies := hanalysed.bodies
    rw [code_eq_nil_of_canonical hm hcustom hrank] at hbodies
    exact forall₂_nil_left_iff.mp hbodies
  have hmem : hasMemory (m ++ [sec]) = (hasMemory m || providesMemory sec) := by
    simp [hasMemory]
  cases sec with
  | type ts =>
    cases h
    refine ⟨by simpa [hmem, providesMemory] using hst.memory, ?_⟩
    simp [hnone nofun (Nat.le_of_ble_eq_true rfl)]
  | «import» is =>
    cases h
    refine ⟨?_, ?_⟩
    · rw [hasMemory_foldl_import, hmem, hst.memory]
    · rw [(analyseImport_frame is st).2.2, hnone nofun (Nat.le_of_ble_eq_true rfl)]
      simp
  | memory ms =>
    cases h
    refine ⟨?_, ?_⟩
    · rw [hmem]
      split
      · rename_i hpos
        simp [providesMemory, hpos]
      · rename_i hpos
        simp [providesMemory, hpos, hst.memory]
    · have hpres : (if ms.length > 0 then { st with hasMemory := true } else st).preInfos = [] := by
        split <;> exact hnone nofun (Nat.le_of_ble_eq_true rfl)
      rw [hpres]
      simp
  | code bs =>
    have hgated : Gated (m ++ [.code bs]) st := by
      refine ⟨by simpa [hmem, providesMemory] using hst.memory, ?_⟩
      simpa [hmem, providesMemory, Module.types, Module.numFunctionImports, Module.imports]
        using hst.gates
    have htypes : st.types = Module.types (m ++ [.code bs]) := by
      simpa [Module.types] using hanalysed.types
    have himports : st.numFunctionImports = UInt32.ofNat (Module.numFunctionImports (m ++ [.code bs])) := by
      simpa [Module.numFunctionImports, Module.imports] using hanalysed.imports
    refine (foldlM_keeps (P := fun s => Gated (m ++ [.code bs]) s ∧ s.types = st.types ∧
      s.numFunctionImports = st.numFunctionImports) ?_ ⟨hgated, rfl, rfl⟩ h).1
    rintro body s s' ⟨hs, hsTypes, hsImports⟩ hstep
    have hnext := gated_analyseBody hs (hsTypes.trans htypes) (hsImports.trans himports) hstep
    obtain ⟨pre, rfl, -⟩ := analyseBody_eq_ok hstep
    exact ⟨hnext, hsTypes, hsImports⟩
  | function ts | custom | table | tag | global | «export» | start | element | dataCount
  | data =>
    cases h
    refine ⟨by simpa [hmem, providesMemory] using hst.memory, ?_⟩
    simpa [hmem, providesMemory, Module.types, Module.numFunctionImports, Module.imports]
      using hst.gates

theorem canonical_of_append {m m' : Module} (h : Module.Canonical (m ++ m')) : m.Canonical := by
  unfold Module.Canonical at h ⊢
  rw [Module.ids_append] at h
  exact (pairwise_append.mp h).1

variable {st : AnalyseState}

theorem gated_walk (hm : m.Canonical) (h : m.foldlM (analyseSection cfg) init = .ok st) :
    Analysed cfg m st ∧ Gated m st := by
  have hinit : Analysed cfg [] init :=
    ⟨rfl, rfl, rfl, .nil, fun _ _ h => absurd h (by simp [init])⟩
  have hgates : Gated [] init := ⟨rfl, fun _ _ h => absurd h (by simp [init])⟩
  refine foldlM_induct (fun done s => Module.Canonical done → Analysed cfg done s ∧ Gated done s) ?_
    (fun _ => ⟨hinit, hgates⟩) h hm
  intro done sec s s' ih hstep hcan
  obtain ⟨hanalysed, hgated⟩ := ih (canonical_of_append hcan)
  exact ⟨analysed_section hanalysed hstep, gated_section hcan hanalysed hgated hstep⟩

/-! ## The walk succeeds -/

theorem analyseCode_succeeds (bodies : List FuncBody)
    (h : st.preInfos.length + bodies.length ≤ st.functionTypeIndices.length) :
    ∃ st', bodies.foldlM (Jit.analyseBody cfg) st = .ok st' := by
  induction bodies generalizing st with
  | nil => exact ⟨st, rfl⟩
  | cons body bodies ih =>
    rw [length_cons] at h
    have hget : st.functionTypeIndices[st.preInfos.length]? = some st.functionTypeIndices[st.preInfos.length] :=
      List.getElem?_eq_getElem (by omega)
    have hbody : ∃ st', Jit.analyseBody cfg st body = .ok st' := by
      unfold Jit.analyseBody
      simp only [hget]
      exact ⟨_, rfl⟩
    obtain ⟨st', hst'⟩ := hbody
    have hroom : st'.preInfos.length + bodies.length ≤ st'.functionTypeIndices.length := by
      obtain ⟨pre, rfl, -⟩ := analyseBody_eq_ok hst'
      simp only [length_append, length_singleton]
      omega
    obtain ⟨st'', hst''⟩ := ih hroom
    refine ⟨st'', ?_⟩
    rw [foldlM_cons, hst', ok_bind]
    exact hst''

/-- The declarations of a valid module come before its one code section, one for each body. -/
theorem code_split {done rest : Module} {bodies : List FuncBody} (hv : ValidModule (done ++ .code bodies :: rest)) :
    done.code = [] ∧ bodies.length ≤ done.functions.length := by
  have hprefix : Module.Canonical (done ++ [.code bodies]) := by
    have hcan := hv.canonical
    rw [append_cons] at hcan
    exact canonical_of_append hcan
  have htail : Module.Canonical (.code bodies :: rest) := by
    have hcan := hv.canonical
    unfold Module.Canonical at hcan ⊢
    rw [Module.ids_append] at hcan
    exact (pairwise_append.mp hcan).2.1
  have hrest : rest.functions = [] := by
    refine flatMap_eq_nil_iff.mpr ?_
    intro s hs
    cases s with
    | function ts =>
      have hrank : SectionId.code.rank < SectionId.function.rank :=
        rank_lt_of_canonical htail nofun _ hs nofun
      exact absurd hrank (by decide)
    | _ => rfl
  refine ⟨code_eq_nil_of_canonical hprefix nofun (Nat.le_refl _), ?_⟩
  have hlength := hv.bodies
  have hcode : Module.code (.code bodies :: rest) = bodies ++ rest.code := rfl
  have hfunctions : Module.functions (.code bodies :: rest) = rest.functions := rfl
  rw [Module.functions_append, Module.code_append, hcode, hfunctions, hrest] at hlength
  simp only [length_append, length_nil] at hlength
  omega

/-- A valid module passes the rewriter's parse pass. -/
theorem walk_succeeds (cfg : DetectorConfig) (hv : ValidModule m) :
    ∃ st, m.foldlM (analyseSection cfg) init = .ok st := by
  suffices h : ∀ (rest done : Module) (st : AnalyseState), done ++ rest = m → Analysed cfg done st →
      ∃ st', rest.foldlM (analyseSection cfg) st = .ok st' by
    refine h m [] _ rfl ⟨rfl, rfl, rfl, .nil, ?_⟩
    exact fun _ _ h => absurd h (by simp [init])
  intro rest
  induction rest with
  | nil => exact fun _ st _ _ => ⟨st, rfl⟩
  | cons sec rest ih =>
    intro done st hdone hst
    have hsec : ∃ st', analyseSection cfg st sec = .ok st' := by
      cases sec with
      | code bodies =>
        obtain ⟨hcode, hlength⟩ := code_split (hdone ▸ hv)
        have hbodies := hst.bodies
        rw [hcode, forall₂_nil_left_iff] at hbodies
        refine analyseCode_succeeds bodies ?_
        rw [hbodies, hst.functions, length_nil, Nat.zero_add]
        exact hlength
      | _ => exact ⟨_, rfl⟩
    obtain ⟨st', hst'⟩ := hsec
    obtain ⟨st'', hst''⟩ := ih (done ++ [sec]) st' (by rw [append_assoc]; exact hdone)
      (analysed_section hst hst')
    refine ⟨st'', ?_⟩
    rw [foldlM_cons, hst', ok_bind]
    exact hst''

/-! ## The two answers -/

/-- The functions the consultation reports as candidates. -/
def reportedCandidates (m : Module) (cfg : DetectorConfig) : Set UInt32 :=
  {i | ∃ v ∈ analyseWithConfig m cfg, v.verdict = .offload ∧ v.functionIndex = i}

/-- The functions the rewriter would swap if every kernel could be emitted. -/
def flaggedFunctions (st : AnalyseState) : Set UInt32 :=
  {i | ∃ pre ∈ st.preInfos, pre.verdict = .offload ∧ pre.funcIndexInGlobalSpace = i}

/-- Those of them that also pass the memory and signature gates. -/
def swappableFunctions (st : AnalyseState) : Set UInt32 :=
  {i | ∃ pre ∈ st.preInfos, pre.verdict = .offload ∧ pre.hasMemory = true ∧
    pre.signatureOk = true ∧ pre.funcIndexInGlobalSpace = i}

/-- The `k`-th body is an offload candidate. -/
def OffloadBody (m : Module) (cfg : DetectorConfig) (k : Nat) : Prop :=
  ∃ body, m.code[k]? = some body ∧ rewriteVerdict cfg body = .offload

/-- The `k`-th defined function passes the gates: there is a memory, and its declared signature has
only number types. -/
def PassesGates (m : Module) (k : Nat) : Prop :=
  hasMemory m = true ∧ ∃ t, m.functions[k]? = some t ∧ signatureOk m.types t = true

theorem mem_reportedCandidates {i : UInt32} :
    i ∈ reportedCandidates m cfg ↔ ∃ k, OffloadBody m cfg k ∧ UInt32.ofNat k = i := by
  unfold reportedCandidates OffloadBody
  rw [analyseWithConfig_eq]
  constructor
  · rintro ⟨v, hv, hverdict, rfl⟩
    obtain ⟨k, hk⟩ := mem_iff_getElem?.mp hv
    rw [List.getElem?_mapIdx] at hk
    obtain ⟨body, hbody, rfl⟩ := Option.map_eq_some_iff.mp hk
    exact ⟨k, ⟨body, hbody, (verdict_analyseBody cfg _ body).symm.trans hverdict⟩, rfl⟩
  · rintro ⟨k, ⟨body, hbody, hverdict⟩, rfl⟩
    refine ⟨analyseBody cfg (UInt32.ofNat k) body, ?_, ?_, rfl⟩
    · refine mem_iff_getElem?.mpr ⟨k, ?_⟩
      rw [List.getElem?_mapIdx, hbody]
      rfl
    · rw [verdict_analyseBody]
      exact hverdict

variable (hanalysed : Analysed cfg m st)

include hanalysed

/-- There is one record for each body, in order, with its verdict. -/
theorem record_iff (k : Nat) : OffloadBody m cfg k ↔ ∃ pre, st.preInfos[k]? = some pre ∧ pre.verdict = .offload := by
  have hlength := hanalysed.bodies.length_eq
  have hverdict : ∀ body pre, m.code[k]? = some body → st.preInfos[k]? = some pre →
      pre.verdict = rewriteVerdict cfg body := by
    intro body pre hbody hpre
    obtain ⟨hk, rfl⟩ := List.getElem?_eq_some_iff.mp hbody
    obtain ⟨hk', rfl⟩ := List.getElem?_eq_some_iff.mp hpre
    have hdesc := List.Forall₂.get hanalysed.bodies hk hk'
    have heq := hdesc.verdict
    rw [hdesc.ops, hdesc.trip] at heq
    exact heq
  constructor
  · rintro ⟨body, hbody, hoffload⟩
    obtain ⟨hk, -⟩ := List.getElem?_eq_some_iff.mp hbody
    have hpre := List.getElem?_eq_getElem (hlength ▸ hk)
    exact ⟨_, hpre, (hverdict body _ hbody hpre).trans hoffload⟩
  · rintro ⟨pre, hpre, hoffload⟩
    obtain ⟨hk, -⟩ := List.getElem?_eq_some_iff.mp hpre
    have hbody := List.getElem?_eq_getElem (hlength ▸ hk)
    exact ⟨_, hbody, (hverdict _ pre hbody hpre).symm.trans hoffload⟩

theorem mem_flaggedFunctions (hgated : Gated m st) {i : UInt32} :
    i ∈ flaggedFunctions st ↔ ∃ k, OffloadBody m cfg k ∧ UInt32.ofNat (m.numFunctionImports + k) = i := by
  constructor
  · rintro ⟨pre, hmem, hoffload, rfl⟩
    obtain ⟨k, hk⟩ := mem_iff_getElem?.mp hmem
    exact ⟨k, (record_iff hanalysed k).mpr ⟨pre, hk, hoffload⟩, ((hgated.gates k pre hk).2.2).symm⟩
  · rintro ⟨k, hbody, rfl⟩
    obtain ⟨pre, hpre, hoffload⟩ := (record_iff hanalysed k).mp hbody
    exact ⟨pre, mem_of_getElem? hpre, hoffload, (hgated.gates k pre hpre).2.2⟩

theorem passesGates_iff (hgated : Gated m st) {k : Nat} {pre : PreFuncInfo}
    (hpre : st.preInfos[k]? = some pre) : PassesGates m k ↔ pre.hasMemory = true ∧ pre.signatureOk = true := by
  obtain ⟨hmemory, hsig, -⟩ := hgated.gates k pre hpre
  have htype : m.functions[k]? = some pre.typeIndex :=
    hanalysed.functions ▸ hanalysed.typeIndices k pre hpre
  unfold PassesGates
  rw [hmemory, hsig, htype]
  simp

theorem mem_swappableFunctions (hgated : Gated m st) {i : UInt32} :
    i ∈ swappableFunctions st ↔
      ∃ k, (OffloadBody m cfg k ∧ PassesGates m k) ∧ UInt32.ofNat (m.numFunctionImports + k) = i := by
  constructor
  · rintro ⟨pre, hmem, hoffload, hmemory, hsig, rfl⟩
    obtain ⟨k, hk⟩ := mem_iff_getElem?.mp hmem
    exact ⟨k, ⟨(record_iff hanalysed k).mpr ⟨pre, hk, hoffload⟩,
      (passesGates_iff hanalysed hgated hk).mpr ⟨hmemory, hsig⟩⟩, ((hgated.gates k pre hk).2.2).symm⟩
  · rintro ⟨k, ⟨hbody, hpasses⟩, rfl⟩
    obtain ⟨pre, hpre, hoffload⟩ := (record_iff hanalysed k).mp hbody
    obtain ⟨hmemory, hsig⟩ := (passesGates_iff hanalysed hgated hpre).mp hpasses
    exact ⟨pre, mem_of_getElem? hpre, hoffload, hmemory, hsig, (hgated.gates k pre hpre).2.2⟩

omit hanalysed

/-- A set of positions is its own shifted subset only if it is empty, or nothing is shifted or
dropped: a least position would otherwise come from a smaller one. -/
theorem shifted_eq_iff {P G : Nat → Prop} {n : Nat} (hbound : ∀ k, P k → n + k < 2 ^ 32) :
    (∀ i : UInt32, (∃ k, P k ∧ UInt32.ofNat k = i) ↔
        ∃ k, (P k ∧ G k) ∧ UInt32.ofNat (n + k) = i) ↔
      (∀ k, ¬ P k) ∨ (n = 0 ∧ ∀ k, P k → G k) := by
  classical
  constructor
  · intro h
    by_cases hempty : ∀ k, ¬ P k
    · exact .inl hempty
    right
    have hsource : ∀ k, P k → ∃ j, (P j ∧ G j) ∧ n + j = k := by
      intro k hk
      obtain ⟨j, hj, heq⟩ := (h (UInt32.ofNat k)).mp ⟨k, hk, rfl⟩
      refine ⟨j, hj, ?_⟩
      have hmod := congrArg UInt32.toNat heq
      rwa [UInt32.toNat_ofNat_of_lt' (hbound j hj.1),
        UInt32.toNat_ofNat_of_lt' (Nat.lt_of_le_of_lt (Nat.le_add_left k n) (hbound k hk))] at hmod
    have hsome : ∃ k, P k := not_forall_not.mp hempty
    obtain ⟨j, ⟨hPj, -⟩, hj⟩ := hsource _ (Nat.find_spec hsome)
    obtain rfl : n = 0 := by
      have hmin := Nat.find_min' hsome hPj
      omega
    refine ⟨rfl, ?_⟩
    intro k hk
    obtain ⟨j, ⟨-, hGj⟩, rfl⟩ := hsource k hk
    rwa [Nat.zero_add]
  · rintro (hempty | ⟨rfl, hgates⟩) i
    · constructor
      · rintro ⟨k, hk, -⟩
        exact absurd hk (hempty k)
      · rintro ⟨k, ⟨hk, -⟩, -⟩
        exact absurd hk (hempty k)
    · simp only [Nat.zero_add]
      constructor
      · rintro ⟨k, hk, rfl⟩
        exact ⟨k, ⟨hk, hgates k hk⟩, rfl⟩
      · rintro ⟨k, ⟨hk, -⟩, rfl⟩
        exact ⟨k, hk, rfl⟩

theorem offloadBody_bound (hv : ValidModule m) (k : Nat) (h : OffloadBody m cfg k) :
    m.numFunctionImports + k < 2 ^ 32 := by
  obtain ⟨body, hbody, -⟩ := h
  obtain ⟨hk, -⟩ := List.getElem?_eq_some_iff.mp hbody
  have hfit := hv.functionsFit
  rw [hv.bodies] at hfit
  omega

/-- **When the two analyses name the same functions.** Both give every body the same verdict. The
indices the consultation reports are those of the rewriter's candidates exactly if there is no
candidate or the module imports no function; they are those of the functions the rewriter goes on to
lower exactly if, in the second case, every candidate also passes the memory and signature gates. -/
theorem analyses_agree_iff (cfg : DetectorConfig) {m : Module} (hv : ValidModule m) :
    ∃ st, m.foldlM (analyseSection cfg) init = .ok st ∧
      (reportedCandidates m cfg = flaggedFunctions st ↔ (∀ k, ¬ OffloadBody m cfg k) ∨ m.numFunctionImports = 0) ∧
      (reportedCandidates m cfg = swappableFunctions st ↔
        (∀ k, ¬ OffloadBody m cfg k) ∨
          (m.numFunctionImports = 0 ∧ ∀ k, OffloadBody m cfg k → PassesGates m k)) := by
  obtain ⟨st, hst⟩ := walk_succeeds cfg hv
  obtain ⟨hanalysed, hgated⟩ := gated_walk hv.canonical hst
  refine ⟨st, hst, ?_, ?_⟩
  · have hshift := shifted_eq_iff (P := OffloadBody m cfg) (G := fun _ => True)
      (offloadBody_bound hv)
    simp only [and_true, implies_true] at hshift
    rw [← hshift, Set.ext_iff]
    refine forall_congr' fun i => ?_
    rw [mem_reportedCandidates, mem_flaggedFunctions hanalysed hgated]
  · rw [← shifted_eq_iff (offloadBody_bound hv), Set.ext_iff]
    refine forall_congr' fun i => ?_
    rw [mem_reportedCandidates, mem_swappableFunctions hanalysed hgated]

theorem validModule_hotCall : ValidModule hotCallModule :=
  ⟨by unfold Module.Canonical; decide, rfl, by decide, by decide⟩

/-- The hot function behind one import is reported as function 0, which is the import; the rewriter
swaps function 1. -/
theorem hotCall_indices_differ :
    ∃ st, hotCallModule.foldlM (analyseSection tunedOptions.detector) init = .ok st ∧
      0 ∈ reportedCandidates hotCallModule tunedOptions.detector ∧ 0 ∉ flaggedFunctions st ∧
      1 ∈ flaggedFunctions st := by
  refine ⟨_, rfl, ⟨_, mem_cons_self, rfl, rfl⟩, ?_, ⟨_, mem_cons_self, rfl, rfl⟩⟩
  rintro ⟨pre, hpre, -, hindex⟩
  have hmem := mem_map_of_mem (f := PreFuncInfo.funcIndexInGlobalSpace) hpre
  have hzero : (0 : UInt32) ∈ [(1 : UInt32), 2] := hindex ▸ hmem
  exact absurd hzero (by decide)

/-- With one candidate and one import, the sets differ. -/
theorem hotCall_disagree :
    ∃ st, hotCallModule.foldlM (analyseSection tunedOptions.detector) init = .ok st ∧
      reportedCandidates hotCallModule tunedOptions.detector ≠ flaggedFunctions st := by
  obtain ⟨st, hst, hiff, -⟩ := analyses_agree_iff tunedOptions.detector validModule_hotCall
  refine ⟨st, hst, ?_⟩
  intro heq
  rcases hiff.mp heq with hnone | hzero
  · exact hnone 0 ⟨hotAddBody, rfl, rfl⟩
  · exact absurd hzero (by decide)

/-! ## Consulting first loses no swap -/

/-- If the consultation finds no candidate, the rewriter has nothing to swap. -/
theorem no_swap_of_no_candidate {driver : Wasm.Driver RewriterState} {blake3 : Bytes → Bytes} {opts : RewriteOptions}
    (hnone : (analyseWithConfig m opts.detector).any (fun v => v.verdict = .offload) = false)
    {out : RewriteOutcome} {puts : List (CacheKey × CachedKernel)}
    (h : rewriteWasm driver blake3 m opts = .ok (out, puts)) : out.offloadedFunctions = [] := by
  refine eq_nil_iff_forall_not_mem.mpr ?_
  intro f hf
  obtain ⟨k, body, pre, kernel, hbody, hdesc, -, hkernel, -⟩ := swapped_inv h hf
  have hverdict := (emitForSlot_eq_some hkernel).1
  rw [hdesc.verdict, hdesc.ops, hdesc.trip] at hverdict
  have hmem : analyseBody opts.detector (UInt32.ofNat k) body ∈ analyseWithConfig m opts.detector := by
    rw [analyseWithConfig_eq]
    refine mem_iff_getElem?.mpr ⟨k, ?_⟩
    rw [List.getElem?_mapIdx, hbody]
    rfl
  have hkeep := any_eq_false.mp hnone _ hmem
  rw [verdict_analyseBody] at hkeep
  exact hkeep (decide_eq_true hverdict)

/-- The module a rewrite leads to: the original unless something was swapped. -/
def rewrittenOr (m : Module) :
    Except RewriteError (RewriteOutcome × List (CacheKey × CachedKernel)) → Module
  | .error _ => m
  | .ok (outcome, _) => if outcome.offloadedFunctions.isEmpty then m else outcome.rewrittenWasm

/-- The early exit of `maybe_rewrite_for_offload` is an optimisation only: with offloading on and a
cache attached, the module is what the rewrite alone leads to. -/
theorem maybeRewriteForOffload_eq (driver : Wasm.Driver RewriterState) (blake3 : Bytes → Bytes)
    (detector : DetectorConfig) (tenantId : UInt64) (m : Module) :
    maybeRewriteForOffload driver blake3 true true detector tenantId m =
      rewrittenOr m (rewriteWasm driver blake3 m
        { RewriteOptions.default with tenantId := tenantId, detector := detector }) := by
  simp only [maybeRewriteForOffload, Bool.not_true, Bool.false_eq_true, if_false]
  by_cases hany : (analyseWithConfig m detector).any (fun v => v.verdict = .offload) = true
  · rw [hany, Bool.not_true, if_neg Bool.false_ne_true]
    rfl
  · rw [Bool.not_eq_true] at hany
    rw [hany, Bool.not_false, if_pos rfl]
    cases hrewrite : rewriteWasm driver blake3 m
        { RewriteOptions.default with tenantId := tenantId, detector := detector } with
    | error e => rfl
    | ok result =>
      obtain ⟨outcome, puts⟩ := result
      rw [rewrittenOr, no_swap_of_no_candidate hany hrewrite]
      rfl

end TensorWasm.Exec
