import TensorWasm.Wasm.Reencode
import TensorWasm.Jit.ClifLower
import TensorWasm.Jit.Kernel
import TensorWasm.Jit.Trampoline

/-!
# The Wasm-to-Wasm rewriter

`tensor-wasm-jit/src/rewrite.rs`. `analyse` walks the sections once and decides, function by
function, whether a body is an offload candidate and which kernel replaces it; `TensorWasmRewriter`
then re-encodes the module through a driver as in `Wasm/Reencode.lean`, adding three types and three
imports, shifting function indices and swapping candidate bodies for trampolines.

Kernels are emitted in parallel in the source; the per-slot work is a function of the slot, so the
order does not matter and a list map stands for it. What the source puts into the kernel cache is
returned as `prePopulated`.
-/

namespace TensorWasm.Jit

open Lib Wasm

structure RewriteOptions where
  hostModule : String
  hostFn : String
  hostAllocFn : String
  hostFreeFn : String
  smVersion : UInt32
  tenantId : UInt64
  detector : DetectorConfig

def RewriteOptions.default : RewriteOptions :=
  { hostModule := "tensor-wasm:jit/host", hostFn := "dispatch", hostAllocFn := "alloc",
    hostFreeFn := "free", smVersion := 80, tenantId := 0, detector := DetectorConfig.default }

/-- One swapped function, by its original index. -/
structure OffloadedFunction where
  functionIndex : UInt32
  fingerprint : UInt64
  originalOpCount : Nat

/-- Classify one operator. Only the SIMD shapes the emitter lowers correctly are SIMD ops here. -/
def opToDetectorOp : Operator → Op
  | .v128Load _ => .load
  | .v128Store _ => .store
  | .add _ => .scalarAdd
  | .mul _ => .scalarMul
  | .load .. => .load
  | .store .. => .store
  | .br _ | .brIf _ | .brTable .. | .if_ _ | .else_ | .loop _ | .block _ => .branch
  | .call _ | .callIndirect .. | .returnCall _ | .returnCallIndirect .. => .call
  | .simdAdd .f32x4 => .v128Add .f32 4
  | .simdAdd .i32x4 => .v128Add .i32 4
  | .simdMul .f32x4 => .v128Mul .f32 4
  | .simdMul .i32x4 => .v128Mul .i32 4
  | _ => .other

def isLoop : Operator → Bool
  | .loop _ => true
  | _ => false

/-! ## The analysis pass -/

/-- What the parse pass records about one body. -/
structure PreFuncInfo where
  typeIndex : UInt32
  verdict : DetectorVerdict
  opCount : Nat
  funcIndexInGlobalSpace : UInt32
  tripGuess : Option Nat
  detectorOps : List Op
  hasMemory : Bool
  signatureOk : Bool

/-- The mutable locals of `analyse`. -/
structure AnalyseState where
  types : List (Option FuncType)
  functionTypeIndices : List UInt32
  numFunctionImports : UInt32
  preInfos : List PreFuncInfo
  hasMemory : Bool

def AnalyseState.init : AnalyseState := ⟨[], [], 0, [], false⟩

/-- The supported-primitives gate, against the types seen so far. -/
def signatureOk (types : List (Option FuncType)) (typeIndex : UInt32) : Bool :=
  match types[typeIndex.toNat]? with
  | some (some t) => t.params.all isSupportedPrimitive && t.results.all isSupportedPrimitive
  | _ => false

/-- One code entry. The cursor of the source is the number of entries recorded so far. -/
def analyseBody (cfg : DetectorConfig) (st : AnalyseState) (body : FuncBody) : Except RewriteError AnalyseState :=
  let cursor := st.preInfos.length
  match st.functionTypeIndices[cursor]? with
  | none => .error (.parse cursor)
  | some typeIndex =>
    let detectorOps := body.ops.map opToDetectorOp
    let tripGuess := if body.ops.any isLoop then some 128 else none
    .ok { st with preInfos := st.preInfos ++ [{
      typeIndex := typeIndex
      verdict := classifyOps detectorOps tripGuess cfg
      opCount := detectorOps.length
      funcIndexInGlobalSpace := st.numFunctionImports + UInt32.ofNat cursor
      tripGuess := tripGuess
      detectorOps := detectorOps
      hasMemory := st.hasMemory
      signatureOk := signatureOk st.types typeIndex }] }

def analyseImport (st : AnalyseState) (i : Import) : AnalyseState :=
  match i.ty with
  | .func _ => { st with numFunctionImports := st.numFunctionImports + 1 }
  | .memory _ => { st with hasMemory := true }
  | _ => st

def analyseSection (cfg : DetectorConfig) (st : AnalyseState) :
    Section → Except RewriteError AnalyseState
  | .type ts => .ok { st with types := st.types ++ ts }
  | .import is => .ok (is.foldl analyseImport st)
  | .memory ms => .ok (if ms.length > 0 then { st with hasMemory := true } else st)
  | .function ts => .ok { st with functionTypeIndices := st.functionTypeIndices ++ ts }
  | .code bs => bs.foldlM (analyseBody cfg) st
  | _ => .ok st

/-- The classes `lower_block` accepts. -/
def isLowerable : Op → Bool
  | .v128Add .. | .v128Mul .. | .v128Fma .. | .load | .store => true
  | _ => false

/-- The block `emit_for_slot` hands to the lowering. -/
def slotBlock (pre : PreFuncInfo) : BlockIR :=
  { name := s!"func{pre.funcIndexInGlobalSpace.toNat}", ops := pre.detectorOps.filter isLowerable,
    loopTripCount := pre.tripGuess }

/-- A kernel emitted for a slot. -/
structure SlotKernel where
  fingerprint : UInt64
  blueprint : TensorWasmKernelBlueprint
  ptx : EmittedPtx

/-- Lower and emit one candidate; `none` keeps the function on the CPU path. -/
def emitForSlot (blake3 : Bytes → Bytes) (pre : PreFuncInfo) : Option SlotKernel :=
  if pre.verdict ≠ .offload then none
  else if !pre.hasMemory then none
  else if !pre.signatureOk then none
  else
    match lowerBlock (slotBlock pre) with
    | .error _ => none
    | .ok bp =>
      match emit bp with
      | .error _ => none
      | .ok ptx => some { fingerprint := bp.fingerprint blake3, blueprint := bp, ptx := ptx }

/-- A kernel is emitted only for an offload verdict, from the lowered slot. -/
theorem emitForSlot_eq_some {blake3 : Bytes → Bytes} {pre : PreFuncInfo} {k : SlotKernel}
    (h : emitForSlot blake3 pre = some k) :
    pre.verdict = .offload ∧ pre.signatureOk = true ∧
      lowerBlock (slotBlock pre) = .ok k.blueprint ∧ emit k.blueprint = .ok k.ptx ∧
      k.fingerprint = k.blueprint.fingerprint blake3 := by
  unfold emitForSlot at h
  split at h
  · cases h
  · rename_i hverdict
    split at h
    · cases h
    · split at h
      · cases h
      · rename_i hsig
        split at h
        · cases h
        · rename_i bp hbp
          split at h
          · cases h
          · rename_i ptx hptx
            cases h
            exact ⟨not_not.mp hverdict, by simpa using hsig, hbp, hptx, rfl⟩

/-- The final per-function record. -/
structure FuncInfo where
  typeIndex : UInt32
  verdict : DetectorVerdict
  kernel : Option SlotKernel
  opCount : Nat

def FuncInfo.fingerprint (i : FuncInfo) : Option UInt64 := i.kernel.map SlotKernel.fingerprint

structure AnalyseOutcome where
  types : List (Option FuncType)
  numFunctionImports : UInt32
  funcInfos : List FuncInfo

def PreFuncInfo.toFuncInfo (blake3 : Bytes → Bytes) (pre : PreFuncInfo) : FuncInfo :=
  { typeIndex := pre.typeIndex, verdict := pre.verdict, kernel := emitForSlot blake3 pre,
    opCount := pre.opCount }

def analyse (blake3 : Bytes → Bytes) (m : Module) (opts : RewriteOptions) :
    Except RewriteError AnalyseOutcome := do
  let st ← m.foldlM (analyseSection opts.detector) AnalyseState.init
  .ok { types := st.types, numFunctionImports := st.numFunctionImports,
        funcInfos := st.preInfos.map (PreFuncInfo.toFuncInfo blake3) }

/-! ## The re-encoding pass -/

/-- What stays fixed while the module is re-encoded. -/
structure RewriterEnv where
  opts : RewriteOptions
  numFunctionImports : UInt32
  dispatchTypeIndex : UInt32
  imports : DispatchImports
  importsAdded : UInt32
  funcInfos : List FuncInfo
  types : List (Option FuncType)

/-- The mutable fields of `TensorWasmRewriter`. -/
structure RewriterState where
  codeCursor : Nat
  swapped : List OffloadedFunction
  typeSectionAppended : Bool
  importSectionAppended : Bool

def RewriterState.init : RewriterState := ⟨0, [], false, false⟩

namespace RewriterEnv

variable (env : RewriterEnv)

def shiftedFnIndex (orig : UInt32) : UInt32 :=
  if orig < env.numFunctionImports then orig else orig + env.importsAdded

/-- The types of the three host functions: dispatch, alloc, free. -/
def importTypes : List (Option FuncType) :=
  [some ⟨[.num .i64, .num .i64, .num .i32, .num .i32, .num .i32], [.num .i32]⟩,
   some ⟨[.num .i32], [.num .i32]⟩,
   some ⟨[.num .i32, .num .i32], []⟩]

/-- The three host imports. -/
def hostImports : List Import :=
  [⟨env.opts.hostModule, env.opts.hostFn, .func env.dispatchTypeIndex⟩,
   ⟨env.opts.hostModule, env.opts.hostAllocFn, .func (env.dispatchTypeIndex + 1)⟩,
   ⟨env.opts.hostModule, env.opts.hostFreeFn, .func (env.dispatchTypeIndex + 2)⟩]

/-- The trampoline for the body at the cursor, with its fingerprint, when it is to be swapped. -/
def swapFor (cursor : Nat) : Option (FuncInfo × UInt64 × FuncBody) :=
  match env.funcInfos[cursor]? with
  | none => none
  | some info =>
    match info.verdict, info.fingerprint with
    | .offload, some fp =>
      match env.types[info.typeIndex.toNat]? with
      | some (some t) =>
        match buildTrampoline fp env.imports t.params t.results with
        | .ok body => some (info, fp, body)
        | .error _ => none
      | _ => none
    | _, _ => none

/-- A swap needs an offload verdict, a kernel, a function type and a trampoline. -/
theorem swapFor_eq_some {cursor : Nat} {info : FuncInfo} {fp : UInt64} {trampoline : FuncBody}
    (h : env.swapFor cursor = some (info, fp, trampoline)) :
    env.funcInfos[cursor]? = some info ∧ info.fingerprint = some fp ∧
      ∃ t, env.types[info.typeIndex.toNat]? = some (some t) ∧
        buildTrampoline fp env.imports t.params t.results = .ok trampoline := by
  unfold swapFor at h
  split at h
  · cases h
  · rename_i info' hinfo
    split at h
    · rename_i fp' hverdict hfp
      split at h
      · rename_i t ht
        split at h
        · rename_i body hbody
          cases h
          exact ⟨hinfo, hfp, t, ht, hbody⟩
        · cases h
      · cases h
    · cases h

def parseFunctionBody (s : RewriterState) (body : FuncBody) : RewriterState × FuncBody :=
  let cursor := s.codeCursor
  let s := { s with codeCursor := cursor + 1 }
  match env.swapFor cursor with
  | none => (s, body.mapFunc env.shiftedFnIndex)
  | some (info, fp, trampoline) =>
    ({ s with swapped := s.swapped ++ [{
         functionIndex := env.numFunctionImports + UInt32.ofNat cursor
         fingerprint := fp, originalOpCount := info.opCount }] },
     trampoline)

theorem parseFunctionBody_none {s : RewriterState} (h : env.swapFor s.codeCursor = none) (body : FuncBody) :
    env.parseFunctionBody s body = ({ s with codeCursor := s.codeCursor + 1 }, body.mapFunc env.shiftedFnIndex) := by
  simp only [parseFunctionBody, h]

theorem parseFunctionBody_some {s : RewriterState} {info : FuncInfo} {fp : UInt64} {trampoline : FuncBody}
    (h : env.swapFor s.codeCursor = some (info, fp, trampoline)) (body : FuncBody) : env.parseFunctionBody s body =
      ({ s with codeCursor := s.codeCursor + 1,
                swapped := s.swapped ++ [{
                  functionIndex := env.numFunctionImports + UInt32.ofNat s.codeCursor
                  fingerprint := fp, originalOpCount := info.opCount }] }, trampoline) := by
  simp only [parseFunctionBody, h]

def parseTypeSection (s : RewriterState) (ts : List (Option FuncType)) : RewriterState × List (Option FuncType) :=
  ({ s with typeSectionAppended := true }, ts ++ importTypes)

/-- Type indices in the imports are unchanged; only function indices shift. -/
def parseImportSection (s : RewriterState) (is : List Import) : RewriterState × List Import :=
  ({ s with importSectionAppended := true }, is ++ env.hostImports)

/-- Inject a fresh type or import section where the module has none of its own. -/
def intersperseSectionHook (s : RewriterState) (out : Module) (_after before : Option SectionId) :
    RewriterState × Module :=
  match before with
  | some .custom | some .type | some .import => (s, out)
  | _ =>
    let (s, out) :=
      if s.typeSectionAppended then (s, out)
      else ({ s with typeSectionAppended := true }, out ++ [.type importTypes])
    if s.importSectionAppended then (s, out)
    else ({ s with importSectionAppended := true }, out ++ [.import env.hostImports])

/-- The overrides of the `Reencode` trait. -/
def reencoder : Reencoder RewriterState where
  functionIndex _ := env.shiftedFnIndex
  parseTypeSection := parseTypeSection
  parseImportSection := env.parseImportSection
  parseFunctionBody := env.parseFunctionBody
  intersperseSectionHook := env.intersperseSectionHook

end RewriterEnv

/-! ## `rewrite_wasm` -/

structure RewriteOutcome where
  rewrittenWasm : Module
  offloadedFunctions : List OffloadedFunction
  totalDefinedFunctions : Nat

/-- The rewriter `rewrite_wasm` sets up from the analysis. -/
def AnalyseOutcome.env (a : AnalyseOutcome) (opts : RewriteOptions) : RewriterEnv :=
  { opts := opts
    numFunctionImports := a.numFunctionImports
    dispatchTypeIndex := UInt32.ofNat a.types.length
    imports := { dispatch := a.numFunctionImports, alloc := a.numFunctionImports + 1,
                 free := a.numFunctionImports + 2 }
    importsAdded := 3
    funcInfos := a.funcInfos
    types := a.types }

/-- The kernels the analysis puts into the cache. -/
def AnalyseOutcome.prePopulated (blake3 : Bytes → Bytes) (a : AnalyseOutcome)
    (opts : RewriteOptions) : List (CacheKey × CachedKernel) :=
  a.funcInfos.filterMap fun info => info.kernel.map fun k =>
    (CacheKey.forTenant opts.tenantId k.fingerprint opts.smVersion, CachedKernel.new blake3 k.fingerprint k.ptx)

/-- Re-emit a module with offload candidates swapped for trampolines, and the cache entries put on
the way. -/
def rewriteWasm (driver : Driver RewriterState) (blake3 : Bytes → Bytes) (m : Module)
    (opts : RewriteOptions) : Except RewriteError (RewriteOutcome × List (CacheKey × CachedKernel)) := do
  let a ← analyse blake3 m opts
  match driver.parseCoreModule (a.env opts).reencoder RewriterState.init m with
  | .error e => .error (.reencode e)
  | .ok (s, out) =>
    .ok ({ rewrittenWasm := out, offloadedFunctions := s.swapped,
           totalDefinedFunctions := a.funcInfos.length }, a.prePopulated blake3 opts)

/-- What a successful rewrite returns. -/
theorem rewriteWasm_eq_ok {driver : Driver RewriterState} {blake3 : Bytes → Bytes} {m : Module}
    {opts : RewriteOptions} {out : RewriteOutcome} {puts : List (CacheKey × CachedKernel)}
    (h : rewriteWasm driver blake3 m opts = .ok (out, puts)) :
    ∃ a s, analyse blake3 m opts = .ok a ∧
      (a.env opts).reencoder.Walks RewriterState.init [] m s out.rewrittenWasm ∧
      out.offloadedFunctions = s.swapped ∧ puts = a.prePopulated blake3 opts := by
  obtain ⟨a, ha, h⟩ := Lib.bind_eq_ok.mp h
  split at h
  · cases h
  · rename_i s wasm hwalk
    cases h
    exact ⟨a, s, ha, driver.walks _ _ _ _ _ hwalk, rfl, rfl⟩

end TensorWasm.Jit
