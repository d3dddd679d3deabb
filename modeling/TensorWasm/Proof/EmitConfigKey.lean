import TensorWasm.Jit.Kernel

/-!
# Emitter configurations and cache keys

`for_tenant_with_emit_config` hashes the target and the PTX version, separated by a zero byte, and the flag
for launch bounds. The emitter prints the version and the target as two directives, with whatever is in the
strings, and reads both flags. So two configurations get one key although the emitter tells them apart when
a zero byte in a string shifts the separator, or when they differ in the experimental flag alone.
-/

namespace TensorWasm.Jit

open Lib

/-! ## What the emitter reads of a configuration -/

/-- The part of the header that is taken from the configuration. -/
def EmitConfig.directives (cfg : EmitConfig) : String := cfg.ptxVersion ++ ("\n.target " ++ cfg.target)

/-- The PTX produced for a blueprint, if there is any. -/
def ptxText (bp : TensorWasmKernelBlueprint) (cfg : EmitConfig) : Option String :=
  (emitWith bp cfg).toOption.map EmittedPtx.text

variable {cfg cfg' : EmitConfig}

theorem lowerOps_of_flag (h : cfg.enableExperimentalMatmul = cfg'.enableExperimentalMatmul) (ops : List TensorWasmOp)
    (s : EmitState) : lowerOps cfg ops s = lowerOps cfg' ops s := by
  induction ops generalizing s with
  | nil => rfl
  | cons op ops ih =>
    have hop : lowerOp cfg op s = lowerOp cfg' op s := by
      cases op with
      | matMul m n k => simp only [lowerOp, h]
      | _ => rfl
    simp only [lowerOps, hop, ih]

/-- The emitted module in terms of the flags, with the two strings put in afterwards. -/
theorem emitModule_of_flags (hflag : cfg.enableExperimentalMatmul = cfg'.enableExperimentalMatmul)
    (hbounds : cfg.launchBounds = cfg'.launchBounds) (bp : TensorWasmKernelBlueprint) :
    emitModule bp cfg' = (emitModule bp cfg).map fun k =>
      { k with ptxVersion := cfg'.ptxVersion, target := cfg'.target } := by
  have hbody : lowerBody bp cfg' = lowerBody bp cfg := by
    simp only [lowerBody, lowerOps_of_flag hflag.symm]
  unfold emitModule
  rw [hbody, hbounds]
  by_cases hvalid : isValidPtxIdentifier bp.entry
  · simp only [hvalid, Bool.not_true, Bool.false_eq_true, if_false]
    cases checkBudget bp.ops 0 with
    | error e => rfl
    | ok u =>
      cases lowerBody bp cfg with
      | error e | ok lowered => rfl
  · simp only [hvalid, Bool.not_false, if_true]
    rfl

/-- The text around the directives is that of the rest of the module. -/
theorem render_around (k : PtxModule) : ∃ before after : List Char, ∀ cfg : EmitConfig,
    ({ k with ptxVersion := cfg.ptxVersion, target := cfg.target } : PtxModule).render.toList =
      before ++ (cfg.directives.toList ++ after) := by
  refine ⟨("//\n// Auto-emitted by tensor-wasm-jit::ptx_emit\n// entry: ").toList ++ (k.entry.toList ++
    ("\n".toList ++ ("// ops:   ".toList ++ ((toString k.numOps).toList ++ ("\n//\n\n".toList ++
    ".version ".toList))))), ?_⟩
  unfold PtxModule.render EmitConfig.directives
  simp only [String.toList_append, List.append_assoc, toString]
  exact ⟨_, fun cfg => rfl⟩

theorem ptxText_of_directives (hdirectives : cfg.directives = cfg'.directives)
    (hflag : cfg.enableExperimentalMatmul = cfg'.enableExperimentalMatmul)
    (hbounds : cfg.launchBounds = cfg'.launchBounds) (bp : TensorWasmKernelBlueprint) :
    ptxText bp cfg = ptxText bp cfg' := by
  -- both modules are the one `cfg` gives, with the strings of the one or the other
  have hcfg : emitModule bp cfg = (emitModule bp cfg).map fun k =>
      { k with ptxVersion := cfg.ptxVersion, target := cfg.target } := emitModule_of_flags rfl rfl bp
  have hcfg' := emitModule_of_flags hflag hbounds bp
  unfold ptxText emitWith
  rw [hcfg', hcfg]
  cases emitModule bp cfg with
  | error e => rfl
  | ok k =>
    obtain ⟨before, after, hrender⟩ := render_around k
    refine congrArg some (String.toList_inj.mp ?_)
    have hleft := hrender cfg
    have hright := hrender cfg'
    rw [← hdirectives] at hright
    exact hleft.trans hright.symm

/-- A kernel without ops. -/
def emptyKernel : TensorWasmKernelBlueprint := .new "k"

/-- A kernel with the one op the experimental flag is for. -/
def matMulKernel : TensorWasmKernelBlueprint := { TensorWasmKernelBlueprint.new "k" with ops := [.matMul 16 16 16] }

/-- The module of the kernel without ops. -/
def emptyModule (cfg : EmitConfig) : PtxModule :=
  ⟨"k", 0, cfg.ptxVersion, cfg.target, if cfg.launchBounds then some 128 else none, entryParams,
    ⟨[], 1, 1, 2, 2, 0⟩⟩

theorem ptxText_emptyKernel (cfg : EmitConfig) : ptxText emptyKernel cfg = some (emptyModule cfg).render := by
  have hvalid : isValidPtxIdentifier emptyKernel.entry = true := by decide
  have hmodule : emitModule emptyKernel cfg = .ok (emptyModule cfg) := by
    unfold emitModule
    rw [hvalid]
    rfl
  simp only [ptxText, emitWith, hmodule]
  rfl

theorem directives_of_emptyKernel (hbounds : cfg.launchBounds = cfg'.launchBounds)
    (h : ptxText emptyKernel cfg = ptxText emptyKernel cfg') : cfg.directives = cfg'.directives := by
  rw [ptxText_emptyKernel, ptxText_emptyKernel] at h
  obtain ⟨before, after, hrender⟩ := render_around (emptyModule cfg)
  have hsame : (emptyModule cfg).render.toList = (emptyModule cfg').render.toList := by rw [Option.some.inj h]
  have hright : emptyModule cfg' =
      { emptyModule cfg with ptxVersion := cfg'.ptxVersion, target := cfg'.target } := by
    simp only [emptyModule, hbounds]
  rw [hright] at hsame
  have htexts := ((hrender cfg).symm.trans hsame).trans (hrender cfg')
  exact String.toList_inj.mp (List.append_cancel_right (List.append_cancel_left htexts))

theorem isSome_ptxText_matMulKernel (cfg : EmitConfig) :
    (ptxText matMulKernel cfg).isSome = cfg.enableExperimentalMatmul := by
  have hvalid : isValidPtxIdentifier matMulKernel.entry = true := by decide
  have hbudget : checkBudget matMulKernel.ops 0 = .ok () := by decide
  unfold ptxText emitWith emitModule
  rw [hvalid, hbudget]
  cases hflag : cfg.enableExperimentalMatmul with
  | false => simp [lowerBody, lowerOps, lowerOp, hflag, matMulKernel, Except.toOption]
  | true =>
    simp [lowerBody, lowerOps, lowerOp, hflag, matMulKernel, lowerWmmaM16N16K16, EmitState.init, checkedAddU32,
      wmmaTileDim, wmmaOperandFragRegs, wmmaAccFragRegs, Except.toOption]

/-! ## What the key covers -/

/-- The strings as they are hashed. -/
def EmitConfig.separated (cfg : EmitConfig) : String := cfg.target ++ ("\x00" ++ cfg.ptxVersion)

theorem utf8Bytes_append (s t : String) : utf8Bytes (s ++ t) = utf8Bytes s ++ utf8Bytes t := by
  simp [utf8Bytes]

theorem preimage_eq_iff (cfg cfg' : EmitConfig) :
    cfg.preimage = cfg'.preimage ↔ cfg.separated = cfg'.separated ∧ cfg.launchBounds = cfg'.launchBounds := by
  have hzero : utf8Bytes "\x00" = [0] := by decide
  have hform : ∀ c : EmitConfig, c.preimage = utf8Bytes "tensor-wasm-jit::EmitConfig::v1\x00" ++
      (utf8Bytes c.separated ++ [0, if c.launchBounds then 1 else 0]) := by
    intro c
    simp [EmitConfig.preimage, EmitConfig.separated, utf8Bytes_append, hzero]
  rw [hform, hform]
  constructor
  · intro h
    obtain ⟨hstrings, hflags⟩ := List.append_inj' (List.append_cancel_left h) rfl
    refine ⟨utf8Bytes_inj hstrings, ?_⟩
    revert hflags
    cases cfg.launchBounds <;> cases cfg'.launchBounds <;> simp
  · rintro ⟨hstrings, hflags⟩
    rw [hstrings, hflags]

/-! ## Separation -/

/-- If the emitter tells the two apart, so does the key. -/
def Separates (cfg cfg' : EmitConfig) : Prop :=
  (∃ bp, ptxText bp cfg ≠ ptxText bp cfg') → cfg.preimage ≠ cfg'.preimage

/-- The key joins the strings with a zero byte between them and leaves the matmul switch out. -/
theorem separates_iff (cfg cfg' : EmitConfig) :
    Separates cfg cfg' ↔
      (cfg.separated = cfg'.separated → cfg.launchBounds = cfg'.launchBounds →
        cfg.directives = cfg'.directives ∧ cfg.enableExperimentalMatmul = cfg'.enableExperimentalMatmul) := by
  constructor
  · intro h hstrings hbounds
    have hsame : ∀ bp, ptxText bp cfg = ptxText bp cfg' := by
      intro bp
      by_contra hne
      exact h ⟨bp, hne⟩ ((preimage_eq_iff cfg cfg').mpr ⟨hstrings, hbounds⟩)
    refine ⟨directives_of_emptyKernel hbounds (hsame emptyKernel), ?_⟩
    rw [← isSome_ptxText_matMulKernel cfg, ← isSome_ptxText_matMulKernel cfg', hsame]
  · rintro h ⟨bp, hne⟩ hkey
    obtain ⟨hstrings, hbounds⟩ := (preimage_eq_iff cfg cfg').mp hkey
    obtain ⟨hdirectives, hflag⟩ := h hstrings hbounds
    exact hne (ptxText_of_directives hdirectives hflag hbounds bp)

/-- A zero byte in the target. -/
def zeroInTarget : EmitConfig := ⟨"sm_80\x008.0", "x", true, false⟩

/-- The same bytes, cut at the other zero. -/
def zeroInVersion : EmitConfig := ⟨"sm_80", "8.0\x00x", true, false⟩

def experimentalConfig : EmitConfig := { EmitConfig.default with enableExperimentalMatmul := true }

/-- A zero byte in the target, and the experimental flag: in both pairs the keys agree and the PTX does not. -/
theorem keys_alias :
    (zeroInTarget.preimage = zeroInVersion.preimage ∧
        ptxText emptyKernel zeroInTarget ≠ ptxText emptyKernel zeroInVersion) ∧
      EmitConfig.default.preimage = experimentalConfig.preimage ∧
        ptxText matMulKernel .default ≠ ptxText matMulKernel experimentalConfig := by
  refine ⟨⟨by decide, ?_⟩, rfl, ?_⟩
  · intro h
    have hbounds : zeroInTarget.launchBounds = zeroInVersion.launchBounds := rfl
    exact absurd (directives_of_emptyKernel hbounds h) (by decide)
  · intro h
    have hflag := congrArg Option.isSome h
    rw [isSome_ptxText_matMulKernel, isSome_ptxText_matMulKernel] at hflag
    cases hflag

end TensorWasm.Jit
