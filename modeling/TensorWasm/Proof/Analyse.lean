import TensorWasm.Jit.Rewrite
import TensorWasm.Lib.Run

/-!
# What the analysis pass records

`analyse` walks the sections once. Three facts about the walk are used by everything that follows:
the type table it returns is the module's, the import count is the number of imported functions,
and there is one record per body, in code order, that describes it.
-/

namespace TensorWasm.Jit

open Lib Wasm

/-! ## The analysis records every body -/

/-- The record of `analyse` about one body. -/
structure Describes (cfg : DetectorConfig) (body : FuncBody) (pre : PreFuncInfo) : Prop where
  ops : pre.detectorOps = body.ops.map opToDetectorOp
  trip : pre.tripGuess = if body.ops.any isLoop then some 128 else none
  verdict : pre.verdict = classifyOps pre.detectorOps pre.tripGuess cfg

variable {st st' : AnalyseState} {cfg : DetectorConfig}

/-- A body with a declared type adds its record. -/
theorem analyseBody_eq_ok {body : FuncBody} (h : analyseBody cfg st body = .ok st') :
    ∃ pre, st' = { st with preInfos := st.preInfos ++ [pre] } ∧ Describes cfg body pre ∧
      st.functionTypeIndices[st.preInfos.length]? = some pre.typeIndex ∧ pre.hasMemory = st.hasMemory ∧
      pre.signatureOk = signatureOk st.types pre.typeIndex ∧
      pre.funcIndexInGlobalSpace = st.numFunctionImports + UInt32.ofNat st.preInfos.length := by
  unfold analyseBody at h
  cases htype : st.functionTypeIndices[st.preInfos.length]? with
  | none =>
    simp only [htype] at h
    cases h
  | some typeIndex =>
    simp only [htype] at h
    cases h
    exact ⟨_, rfl, ⟨rfl, rfl, rfl⟩, rfl, rfl, rfl, rfl⟩

theorem describes_code {bodies done : List FuncBody} (hst : List.Forall₂ (Describes cfg) done st.preInfos)
    (h : bodies.foldlM (analyseBody cfg) st = .ok st') :
    List.Forall₂ (Describes cfg) (done ++ bodies) st'.preInfos := by
  refine foldlM_induct (fun bs s => List.Forall₂ (Describes cfg) bs s.preInfos) ?_ hst h
  intro bs b s s' hs hstep
  obtain ⟨pre, rfl, hdesc, -⟩ := analyseBody_eq_ok hstep
  exact List.rel_append hs (.cons hdesc .nil)

/-- Each record has the declared type index of its function. -/
def TypesRecorded (st : AnalyseState) : Prop :=
  ∀ (k : Nat) (pre : PreFuncInfo), st.preInfos[k]? = some pre → st.functionTypeIndices[k]? = some pre.typeIndex

theorem typesRecorded_analyseBody {body : FuncBody} (hst : TypesRecorded st) (h : analyseBody cfg st body = .ok st') :
    TypesRecorded st' := by
  obtain ⟨new, rfl, -, htype, -⟩ := analyseBody_eq_ok h
  intro k pre hk
  rcases getElem?_concat hk with hk | ⟨rfl, rfl⟩
  · exact hst k pre hk
  · exact htype

/-- What the analysis has recorded after the sections `done`. -/
structure Analysed (cfg : DetectorConfig) (done : Module) (st : AnalyseState) : Prop where
  types : st.types = done.types
  imports : st.numFunctionImports = UInt32.ofNat done.numFunctionImports
  functions : st.functionTypeIndices = done.functions
  bodies : List.Forall₂ (Describes cfg) done.code st.preInfos
  typeIndices : TypesRecorded st

theorem analyseCode_frame {bodies : List FuncBody} (h : bodies.foldlM (analyseBody cfg) st = .ok st') :
    st'.types = st.types ∧ st'.numFunctionImports = st.numFunctionImports ∧
      st'.functionTypeIndices = st.functionTypeIndices := by
  refine foldlM_keeps (P := fun s => s.types = st.types ∧
    s.numFunctionImports = st.numFunctionImports ∧
    s.functionTypeIndices = st.functionTypeIndices) ?_ ⟨rfl, rfl, rfl⟩ h
  intro b s s' hs hstep
  obtain ⟨pre, rfl, -⟩ := analyseBody_eq_ok hstep
  exact hs

theorem analyseImport_frame (is : List Import) (st : AnalyseState) :
    (is.foldl analyseImport st).types = st.types ∧
      (is.foldl analyseImport st).functionTypeIndices = st.functionTypeIndices ∧
      (is.foldl analyseImport st).preInfos = st.preInfos := by
  induction is generalizing st with
  | nil => exact ⟨rfl, rfl, rfl⟩
  | cons i is ih =>
    rw [List.foldl_cons]
    obtain ⟨h1, h2, h3⟩ := ih (analyseImport st i)
    rw [h1, h2, h3]
    unfold analyseImport
    cases i.ty <;> exact ⟨rfl, rfl, rfl⟩

theorem numFunctionImports_foldl (is : List Import) (st : AnalyseState) :
    (is.foldl analyseImport st).numFunctionImports =
      st.numFunctionImports + UInt32.ofNat (is.filter Import.isFunc).length := by
  induction is generalizing st with
  | nil => simp
  | cons i is ih =>
    rw [List.foldl_cons, ih]
    unfold analyseImport Import.isFunc
    cases hty : i.ty with
    | func t =>
      simp only [List.filter_cons, hty, if_true, List.length_cons]
      rw [UInt32.ofNat_add, UInt32.add_assoc, UInt32.add_comm 1]
      rfl
    | _ => simp [hty]

/-- **One section.** -/
theorem analysed_section {sec : Section} {done : Module} (hst : Analysed cfg done st)
    (h : analyseSection cfg st sec = .ok st') : Analysed cfg (done ++ [sec]) st' := by
  obtain ⟨htypes, himports, hfuncs, hbodies, hidx⟩ := hst
  cases sec with
  | code bs =>
    obtain ⟨h1, h2, h3⟩ := analyseCode_frame h
    refine ⟨?_, ?_, ?_, ?_, ?_⟩
    · simp [h1, htypes, Module.types]
    · simp [h2, himports, Module.numFunctionImports, Module.imports]
    · simp [h3, hfuncs, Module.functions]
    · have hbs : Module.code [.code bs] = bs := by simp [Module.code]
      rw [Module.code_append, hbs]
      exact describes_code hbodies h
    · exact foldlM_keeps (fun _ _ _ hs hstep => typesRecorded_analyseBody hs hstep) hidx h
  | «import» is =>
    cases h
    obtain ⟨h1, h2, h3⟩ := analyseImport_frame is st
    refine ⟨?_, ?_, ?_, ?_, ?_⟩
    · simp [h1, htypes, Module.types]
    · rw [numFunctionImports_foldl, himports]
      simp [Module.numFunctionImports, Module.imports, UInt32.ofNat_add]
    · simp [h2, hfuncs, Module.functions]
    · rw [h3]
      simpa [Module.code] using hbodies
    · unfold TypesRecorded
      rw [h2, h3]
      exact hidx
  | memory ms =>
    cases h
    refine ⟨?_, ?_, ?_, ?_, ?_⟩
    · split <;> simp [htypes, Module.types]
    · split <;> simp [himports, Module.numFunctionImports, Module.imports]
    · split <;> simp [hfuncs, Module.functions]
    · split <;> simpa [Module.code] using hbodies
    · split <;> exact hidx
  | function ts =>
    cases h
    refine ⟨?_, ?_, ?_, ?_, ?_⟩
    · simp [htypes, Module.types]
    · simp [himports, Module.numFunctionImports, Module.imports]
    · simp [hfuncs, Module.functions]
    · simpa [Module.code] using hbodies
    · intro k pre hk
      have hget := hidx k pre hk
      rw [List.getElem?_append_left (List.getElem?_eq_some_iff.mp hget).1]
      exact hget
  | type | custom | table | tag | global | «export» | start | element | dataCount
  | data =>
    cases h
    refine ⟨?_, ?_, ?_, ?_, ?_⟩
    · simp [htypes, Module.types]
    · simp [himports, Module.numFunctionImports, Module.imports]
    · simp [hfuncs, Module.functions]
    · simpa [Module.code] using hbodies
    · exact hidx

/-- **The whole walk.** -/
theorem analysed_analyse {blake3 : Bytes → Bytes} {m : Module} {opts : RewriteOptions}
    {a : AnalyseOutcome} (h : analyse blake3 m opts = .ok a) :
    ∃ st, Analysed opts.detector m st ∧ a.types = st.types ∧
      a.numFunctionImports = st.numFunctionImports ∧
      a.funcInfos = st.preInfos.map (PreFuncInfo.toFuncInfo blake3) := by
  obtain ⟨st, hst, h⟩ := bind_eq_ok.mp h
  cases h
  refine ⟨st, ?_, rfl, rfl, rfl⟩
  have hinit : Analysed opts.detector [] AnalyseState.init :=
    ⟨rfl, rfl, rfl, .nil, fun _ _ h => absurd h (by simp [AnalyseState.init])⟩
  exact foldlM_induct (Analysed opts.detector) (fun _ _ _ _ hs hstep => analysed_section hs hstep)
    hinit hst

end TensorWasm.Jit
