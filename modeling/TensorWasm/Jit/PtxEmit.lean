import TensorWasm.Jit.Ir
import TensorWasm.Lib.Outcome

/-!
# The PTX emitter

`tensor-wasm-jit/src/ptx_emit.rs`. The source writes text line by line; here the lines of a kernel
are first built as values of `PtxInstr` and `PtxModule`, and `render` prints them exactly as the
`writeln!` calls do. The intermediate syntax is what gives the emitted body a meaning
(`Jit/PtxExec.lean`); the text is what the cache stores and the launcher reads.

`lowerBody` keeps the source's register allocator: one shared stack of register *indices*, two
counters (`%f` and `%r`), and two byte offsets that advance by the element width.
-/

namespace TensorWasm.Jit

/-- PTX register class a SIMD lane is materialised in. -/
inductive RegClass where
  | f32 | s32
  deriving DecidableEq

/-- The class is decided by floatness alone, so `f64` lanes land in the `.f32` class. -/
def RegClass.forElem (elem : ElemType) : RegClass :=
  if elem.isFloat then .f32 else .s32

def RegClass.regPrefix : RegClass → String
  | .f32 => "f"
  | .s32 => "r"

/-- The arithmetic mnemonics the emitter can produce. -/
inductive Mnemonic where
  | addF32 | addS32 | mulF32 | mulLoS32 | fmaRnF32

def Mnemonic.text : Mnemonic → String
  | .addF32 => "add.f32"
  | .addS32 => "add.s32"
  | .mulF32 => "mul.f32"
  | .mulLoS32 => "mul.lo.s32"
  | .fmaRnF32 => "fma.rn.f32"

/-- Errors produced by the PTX emitter. -/
inductive EmitError where
  | notYetImplemented (msg : String)
  | invalidEntryName (entry : String)
  | tooManyRegisters
  | emissionBudgetExceeded (what : String)
  deriving DecidableEq

def addMnemonic : ElemType → Except EmitError Mnemonic
  | .f32 => .ok .addF32
  | .i32 => .ok .addS32
  | _ => .error (.notYetImplemented "PTX add for this SIMD element width is not yet emittable")

def mulMnemonic : ElemType → Except EmitError Mnemonic
  | .f32 => .ok .mulF32
  | .i32 => .ok .mulLoS32
  | _ => .error (.notYetImplemented "PTX mul for this SIMD element width is not yet emittable")

def fmaMnemonic : ElemType → Except EmitError Mnemonic
  | .f32 => .ok .fmaRnF32
  | _ => .error (.notYetImplemented "PTX fma for this SIMD element width is not yet emittable")

/-- The load/store type suffix: 32 bits whatever the element width. -/
inductive LdStType where
  | f32 | u32
  deriving DecidableEq

def LdStType.text : LdStType → String
  | .f32 => "f32"
  | .u32 => "u32"

def loadStoreType (elem : ElemType) : LdStType :=
  if elem.isFloat then .f32 else .u32

def maxPtxIdentifierLen : Nat := 1024

/-- `[A-Za-z_][A-Za-z0-9_$]*`, at most `maxPtxIdentifierLen` bytes. A non-ASCII character has only
non-ASCII bytes, so testing characters agrees with the source's test of bytes. -/
def isValidPtxIdentifier (s : String) : Bool :=
  match s.toList with
  | [] => false
  | first :: rest =>
    s.utf8ByteSize ≤ maxPtxIdentifierLen && (first.isAlpha || first == '_') &&
      rest.all fun c => c.isAlphanum || c == '_' || c == '$'

def wmmaOperandFragRegs : Nat := 8
def wmmaAccFragRegs : Nat := 8
def wmmaTileDim : UInt32 := 16
def maxLanes : Nat := 1024
def maxEmittedOps : Nat := 2 ^ 20

/-- Configuration knobs for the emitter. -/
structure EmitConfig where
  target : String
  ptxVersion : String
  launchBounds : Bool
  enableExperimentalMatmul : Bool

/-- `EmitConfig::default`: sm_80, PTX 8.0, launch bounds on, the wmma experiment off. -/
def EmitConfig.default : EmitConfig :=
  { target := "sm_80", ptxVersion := "8.0", launchBounds := true,
    enableExperimentalMatmul := false }

/-! ## The lines of a kernel body -/

/-- One step of the emitted body. `ld` reads from `%rd0 + off`, `st` writes to `%rd1 + off`. -/
inductive PtxInstr where
  | comment (text : String)
  | arith2 (m : Mnemonic) (cls : RegClass) (dst a b : Nat)
  | arith3 (m : Mnemonic) (cls : RegClass) (dst a b c : Nat)
  | ld (ty : LdStType) (cls : RegClass) (dst off : Nat)
  | st (ty : LdStType) (cls : RegClass) (src off : Nat)
  | barSync
  | wmma (aFrag bFrag accFrag bBase cBase : Nat)

/-- A register operand, `%f3` or `%r3`. -/
def RegClass.reg (cls : RegClass) (n : Nat) : String := s!"%{cls.regPrefix}{n}"

/-- A buffer address: the source omits a zero offset. -/
def bufferAddr (base : String) (off : Nat) : String :=
  if off = 0 then s!"[{base}]" else s!"[{base}+{off}]"

/-- A braced fragment list of `count` registers starting at `base`. -/
def fragList (base count : Nat) (cls : String) : String :=
  "\x7b" ++ String.intercalate ", " ((List.range count).map fun i => s!"%{cls}{base + i}") ++ "\x7d"

/-- The text of one body line (the wmma step is eight lines). -/
def PtxInstr.render : PtxInstr → String
  | .comment t => s!"    // {t}\n"
  | .arith2 m cls dst a b => s!"    {m.text} {cls.reg dst}, {cls.reg a}, {cls.reg b};\n"
  | .arith3 m cls dst a b c =>
      s!"    {m.text} {cls.reg dst}, {cls.reg a}, {cls.reg b}, {cls.reg c};\n"
  | .ld ty cls dst off =>
      let addr := bufferAddr "%rd0" off
      s!"    ld.global.lu.{ty.text} {cls.reg dst}, {addr};\n"
  | .st ty cls src off =>
      let addr := bufferAddr "%rd1" off
      s!"    st.global.cs.{ty.text} {addr}, {cls.reg src};\n"
  | .barSync => "    bar.sync 0;\n"
  | .wmma aFrag bFrag accFrag bBase cBase =>
      let a := fragList aFrag wmmaOperandFragRegs "rb"
      let b := fragList bFrag wmmaOperandFragRegs "rb"
      let acc := fragList accFrag wmmaAccFragRegs "f"
      "    // EXPERIMENTAL / UNVERIFIED ON HARDWARE: wmma m16n16k16 (row.col, f16xf16->f32)\n" ++
      s!"    add.s64 %rd{bBase}, %rd0, 512;\n" ++
      s!"    add.s64 %rd{cBase}, %rd0, 1024;\n" ++
      s!"    wmma.load.a.sync.aligned.row.m16n16k16.global.f16 {a}, [%rd0], 16;\n" ++
      s!"    wmma.load.b.sync.aligned.col.m16n16k16.global.f16 {b}, [%rd{bBase}], 16;\n" ++
      s!"    wmma.load.c.sync.aligned.row.m16n16k16.global.f32 {acc}, [%rd{cBase}], 16;\n" ++
      s!"    wmma.mma.sync.aligned.row.col.m16n16k16.f32.f32 {acc}, {a}, {b}, {acc};\n" ++
      s!"    wmma.store.d.sync.aligned.row.m16n16k16.global.f32 [%rd1], {acc}, 16;\n"

/-! ## `lower_body` -/

/-- The mutable locals of `lower_body`. The value stack has its top at the head; `body` holds the
lines written so far, in order. -/
structure EmitState where
  body : List PtxInstr
  valueStack : List Nat
  nextF : Nat
  nextR : Nat
  maxS64 : Nat
  maxB32 : Nat
  inOff : Nat
  outOff : Nat

/-- `%r0` holds the element count, so integer registers start at 1; `%rd0` and `%rd1` hold the two
buffer pointers. -/
def EmitState.init : EmitState :=
  { body := [], valueStack := [], nextF := 0, nextR := 1, maxS64 := 2, maxB32 := 0,
    inOff := 0, outOff := 0 }

def EmitState.write (s : EmitState) (i : PtxInstr) : EmitState := { s with body := s.body ++ [i] }

/-- `u32::checked_add` with the emitter's overflow error. -/
def checkedAddU32 (a b : Nat) : Except EmitError Nat :=
  if a + b < 2 ^ 32 then .ok (a + b) else .error .tooManyRegisters

theorem checkedAddU32_eq_ok {a b c : Nat} (h : checkedAddU32 a b = .ok c) : c = a + b := by
  unfold checkedAddU32 at h
  split at h
  · exact (Except.ok.inj h).symm
  · cases h

/-- Allocate a fresh register in the given class. -/
def alloc (cls : RegClass) (s : EmitState) : Except EmitError (Nat × EmitState) :=
  match cls with
  | .f32 => do
    let next ← checkedAddU32 s.nextF 1
    .ok (s.nextF, { s with nextF := next })
  | .s32 => do
    let next ← checkedAddU32 s.nextR 1
    .ok (s.nextR, { s with nextR := next })

/-- Pop an operand register, or allocate a fresh (never written) one on underflow. -/
def popOrAlloc (cls : RegClass) (s : EmitState) : Except EmitError (Nat × EmitState) :=
  match s.valueStack with
  | idx :: rest => .ok (idx, { s with valueStack := rest })
  | [] => alloc cls s

/-- One lane of `vec_add` / `vec_mul`: pop `b`, pop `a`, push the result. -/
def lowerLane2 (m : Mnemonic) (cls : RegClass) (s : EmitState) : Except EmitError EmitState := do
  let (b, s) ← popOrAlloc cls s
  let (a, s) ← popOrAlloc cls s
  let (dst, s) ← alloc cls s
  let s := s.write (.arith2 m cls dst a b)
  .ok { s with valueStack := dst :: s.valueStack }

/-- One lane of `vec_fma`: pop `c`, `b`, `a`, push the result. -/
def lowerLane3 (m : Mnemonic) (cls : RegClass) (s : EmitState) : Except EmitError EmitState := do
  let (c, s) ← popOrAlloc cls s
  let (b, s) ← popOrAlloc cls s
  let (a, s) ← popOrAlloc cls s
  let (dst, s) ← alloc cls s
  let s := s.write (.arith3 m cls dst a b c)
  .ok { s with valueStack := dst :: s.valueStack }

/-- One lane of `load_unified`. -/
def lowerLaneLoad (elem : ElemType) (s : EmitState) : Except EmitError EmitState := do
  let cls := RegClass.forElem elem
  let (dst, s) ← alloc cls s
  let s := s.write (.ld (loadStoreType elem) cls dst s.inOff)
  let off ← checkedAddU32 s.inOff elem.byteWidth
  .ok { s with inOff := off, valueStack := dst :: s.valueStack }

/-- One lane of `store_unified`. -/
def lowerLaneStore (elem : ElemType) (s : EmitState) : Except EmitError EmitState := do
  let cls := RegClass.forElem elem
  let (src, s) ← popOrAlloc cls s
  let s := s.write (.st (loadStoreType elem) cls src s.outOff)
  let off ← checkedAddU32 s.outOff elem.byteWidth
  .ok { s with outOff := off }

/-- The `for _ in 0..lanes` loop around one lane's lowering. -/
def lowerLanes (lane : EmitState → Except EmitError EmitState) :
    Nat → EmitState → Except EmitError EmitState
  | 0, s => .ok s
  | n + 1, s => do
    let s ← lane s
    lowerLanes lane n s

/-- `lower_wmma_m16n16k16`: fragment windows in the `%rb` and `%f` classes, two fresh `%rd`. -/
def lowerWmmaM16N16K16 (s : EmitState) : Except EmitError EmitState := do
  let aFrag := s.maxB32
  let b1 ← checkedAddU32 s.maxB32 wmmaOperandFragRegs
  let b2 ← checkedAddU32 b1 wmmaOperandFragRegs
  let acc ← checkedAddU32 s.nextF wmmaAccFragRegs
  let bBase := s.maxS64
  let cBase := bBase + 1
  let s64 ← checkedAddU32 cBase 1
  let s := s.write (.wmma aFrag b1 s.nextF bBase cBase)
  .ok { s with maxB32 := b2, nextF := acc, maxS64 := s64 }

/-- One arm of the op loop of `lower_body`. -/
def lowerOp (cfg : EmitConfig) (op : TensorWasmOp) (s : EmitState) : Except EmitError EmitState :=
  match op with
  | .vecAdd elem lanes => do
    let s := s.write (.comment s!"vec_add.{elem.display}[{lanes.toNat}] lanes")
    let m ← addMnemonic elem
    lowerLanes (lowerLane2 m (RegClass.forElem elem)) lanes.toNat s
  | .vecMul elem lanes => do
    let s := s.write (.comment s!"vec_mul.{elem.display}[{lanes.toNat}] lanes")
    let m ← mulMnemonic elem
    lowerLanes (lowerLane2 m (RegClass.forElem elem)) lanes.toNat s
  | .vecFma elem lanes =>
    if !elem.isFloat then
      .error (.notYetImplemented "integer VecFma has no single-rounding PTX form")
    else do
      let s := s.write (.comment s!"vec_fma.{elem.display}[{lanes.toNat}] lanes")
      let m ← fmaMnemonic elem
      lowerLanes (lowerLane3 m (RegClass.forElem elem)) lanes.toNat s
  | .matMul m n k =>
    if !cfg.enableExperimentalMatmul then
      .error (.notYetImplemented "MatMul lowering deferred to v0.4")
    else if (m, n, k) ≠ (wmmaTileDim, wmmaTileDim, wmmaTileDim) then
      .error (.notYetImplemented "experimental wmma lowering only models m16n16k16")
    else lowerWmmaM16N16K16 s
  | .loadUnified elem lanes =>
    let s := s.write (.comment
      s!"load_unified.{elem.display}[{lanes.toNat}] lanes (.lu cache hint) from %rd0+{s.inOff}")
    lowerLanes (lowerLaneLoad elem) lanes.toNat s
  | .storeUnified elem lanes =>
    let s := s.write (.comment
      s!"store_unified.{elem.display}[{lanes.toNat}] lanes (.cs cache hint) to %rd1+{s.outOff}")
    lowerLanes (lowerLaneStore elem) lanes.toNat s
  | .barrier => .ok (s.write .barSync)

/-- The op loop of `lower_body`. -/
def lowerOps (cfg : EmitConfig) : List TensorWasmOp → EmitState → Except EmitError EmitState
  | [], s => .ok s
  | op :: ops, s => do
    let s ← lowerOp cfg op s
    lowerOps cfg ops s

/-- What `lower_body` returns: the body and the register counts to declare. -/
structure LoweredBody where
  body : List PtxInstr
  maxF : Nat
  maxS32 : Nat
  maxS64 : Nat
  maxPred : Nat
  maxB32 : Nat

def lowerBody (bp : TensorWasmKernelBlueprint) (cfg : EmitConfig) :
    Except EmitError LoweredBody := do
  let s ← lowerOps cfg bp.ops EmitState.init
  .ok { body := s.body, maxF := max s.nextF 1, maxS32 := max s.nextR 1, maxS64 := s.maxS64,
        maxPred := 2, maxB32 := s.maxB32 }

/-! ## `emit_with` -/

/-- The lane count an op contributes to the emission budget. -/
def TensorWasmOp.budgetLanes : TensorWasmOp → Nat
  | .vecAdd _ lanes | .vecMul _ lanes | .vecFma _ lanes
  | .loadUnified _ lanes | .storeUnified _ lanes => lanes.toNat
  | .matMul .. | .barrier => 0

/-- `u64::saturating_add`. -/
def saturatingAddU64 (a b : Nat) : Nat := min (a + b) (2 ^ 64 - 1)

/-- The guardrail loop of `emit_with`, with the running budget. -/
def checkBudget : List TensorWasmOp → Nat → Except EmitError Unit
  | [], _ => .ok ()
  | op :: ops, budget =>
    if op.budgetLanes > maxLanes then
      .error (.emissionBudgetExceeded "single op `lanes` exceeds MAX_LANES")
    else
      let budget := saturatingAddU64 budget op.budgetLanes
      if budget > maxEmittedOps then
        .error (.emissionBudgetExceeded "aggregate ops * lanes exceeds MAX_EMITTED_OPS")
      else checkBudget ops budget

/-- A kernel parameter of the emitted entry: its width in bytes and the suffix of its name. -/
structure PtxParam where
  width : Nat
  suffix : String

/-- The `.param` list every emitted entry declares. -/
def entryParams : List PtxParam :=
  [{ width := 8, suffix := "param_in_ptr" }, { width := 8, suffix := "param_out_ptr" },
   { width := 4, suffix := "param_n" }]

/-- A kernel as `emit_with` assembles it. -/
structure PtxModule where
  entry : String
  numOps : Nat
  ptxVersion : String
  target : String
  maxntid : Option UInt32
  params : List PtxParam
  lowered : LoweredBody

/-- One `.param` line; all but the last end in a comma. -/
def PtxParam.render (entry : String) (p : PtxParam) (last : Bool) : String :=
  let comma := if last then "" else ","
  s!"    .param .u{8 * p.width} {entry}_{p.suffix}{comma}\n"

def renderParams (entry : String) : List PtxParam → String
  | [] => ""
  | [p] => p.render entry true
  | p :: ps => p.render entry false ++ renderParams entry ps

/-- The PTX text, header to closing brace. -/
def PtxModule.render (k : PtxModule) : String :=
  s!"//\n// Auto-emitted by tensor-wasm-jit::ptx_emit\n// entry: {k.entry}\n" ++
  s!"// ops:   {k.numOps}\n//\n\n" ++
  s!".version {k.ptxVersion}\n.target {k.target}\n.address_size 64\n\n" ++
  s!".visible .entry {k.entry}(\n" ++ renderParams k.entry k.params ++ ")\n" ++
  (match k.maxntid with
   | some block => s!".maxntid {block.toNat}, 1, 1\n"
   | none => "") ++
  "\x7b\n" ++
  s!"    .reg .pred  %p<{k.lowered.maxPred}>;\n" ++
  s!"    .reg .s32   %r<{k.lowered.maxS32}>;\n" ++
  s!"    .reg .s64   %rd<{k.lowered.maxS64}>;\n" ++
  s!"    .reg .f32   %f<{k.lowered.maxF}>;\n" ++
  (if k.lowered.maxB32 > 0 then s!"    .reg .b32   %rb<{k.lowered.maxB32}>;\n" else "") ++
  "\n" ++
  s!"    ld.param.u64 %rd0, [{k.entry}_param_in_ptr];\n" ++
  s!"    ld.param.u64 %rd1, [{k.entry}_param_out_ptr];\n" ++
  s!"    ld.param.u32 %r0, [{k.entry}_param_n];\n\n" ++
  String.join (k.lowered.body.map PtxInstr.render) ++
  "\n    ret;\n\x7d\n"

/-- Result of emitting a blueprint: what the kernel cache stores. -/
structure EmittedPtx where
  text : String
  launchGeometry : UInt32 × UInt32
  deriving DecidableEq

/-- `emit_with` up to printing. -/
def emitModule (bp : TensorWasmKernelBlueprint) (cfg : EmitConfig) : Except EmitError PtxModule :=
  if !isValidPtxIdentifier bp.entry then .error (.invalidEntryName bp.entry)
  else do
    checkBudget bp.ops 0
    let lowered ← lowerBody bp cfg
    .ok { entry := bp.entry, numOps := bp.ops.length, ptxVersion := cfg.ptxVersion,
          target := cfg.target,
          maxntid := if cfg.launchBounds then some bp.gridHint.launchGeometry.2 else none,
          params := entryParams, lowered := lowered }

theorem emitModule_eq_ok {bp : TensorWasmKernelBlueprint} {cfg : EmitConfig} {k : PtxModule}
    (h : emitModule bp cfg = .ok k) :
    isValidPtxIdentifier bp.entry ∧ k.entry = bp.entry ∧ k.ptxVersion = cfg.ptxVersion ∧
      k.target = cfg.target ∧ k.params = entryParams := by
  unfold emitModule at h
  split at h
  · cases h
  · rename_i hvalid
    obtain ⟨-, -, h⟩ := Lib.bind_eq_ok.mp h
    obtain ⟨lowered, -, h⟩ := Lib.bind_eq_ok.mp h
    cases h
    exact ⟨by simpa using hvalid, rfl, rfl, rfl, rfl⟩

theorem lowered_of_emitModule {bp : TensorWasmKernelBlueprint} {cfg : EmitConfig} {k : PtxModule}
    (h : emitModule bp cfg = .ok k) : lowerBody bp cfg = .ok k.lowered := by
  unfold emitModule at h
  split at h
  · cases h
  · obtain ⟨-, -, h⟩ := Lib.bind_eq_ok.mp h
    obtain ⟨lowered, hlow, h⟩ := Lib.bind_eq_ok.mp h
    cases h
    exact hlow

/-- Emit PTX text for a blueprint with caller-supplied config. -/
def emitWith (bp : TensorWasmKernelBlueprint) (cfg : EmitConfig) :
    Except EmitError EmittedPtx := do
  let k ← emitModule bp cfg
  .ok { text := k.render, launchGeometry := bp.gridHint.launchGeometry }

/-- Emit PTX text with the default config. -/
def emit (bp : TensorWasmKernelBlueprint) : Except EmitError EmittedPtx :=
  emitWith bp EmitConfig.default

end TensorWasm.Jit
