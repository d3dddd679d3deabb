import TensorWasm.Exec.Launch

/-!
# The emitter against the launcher

What `launch_cached_kernel` asks the driver for, compared with the entry that `emit_with` declared.
They agree on the entry symbol (`entry_recovered`). They do not agree on the rest: the launcher reads
the `(grid, block)` pair as `(block, grid)`, and it passes a pointer and two lengths to an entry that
declares two pointers and a count.
-/

namespace TensorWasm.Exec

open Jit Lib

/-! ## The entry symbol -/

/-- An emitter configuration whose texts cannot be mistaken for an `.entry` directive. -/
def EntryClear (cfg : EmitConfig) : Prop :=
  clearOf '.' 'e' cfg.ptxVersion.toList ∧ clearOf '.' 'e' cfg.target.toList

theorem entryClear_default : EntryClear EmitConfig.default := by
  constructor <;> decide

theorem dot_notMem_toString (n : Nat) : '.' ∉ (toString n).toList := by
  intro h
  rw [Nat.toString_eq_repr, Nat.toList_repr] at h
  exact absurd (Nat.isDigit_of_mem_toDigits (by decide) (by decide) h) (by decide)

/-- A valid identifier starts with a letter or an underscore and has identifier characters only. -/
theorem isValidPtxIdentifier_cases {s : String} (h : isValidPtxIdentifier s) :
    ∃ first rest, s.toList = first :: rest ∧ (first.isAlpha ∨ first = '_') ∧ ∀ c ∈ s.toList, isIdentChar c := by
  unfold isValidPtxIdentifier at h
  cases hs : s.toList with
  | nil => rw [hs] at h; exact nomatch h
  | cons first rest =>
    rw [hs] at h
    simp only [Bool.and_eq_true, Bool.or_eq_true, beq_iff_eq, List.all_eq_true] at h
    obtain ⟨⟨-, hfirst⟩, hrest⟩ := h
    refine ⟨first, rest, rfl, hfirst, ?_⟩
    intro c hc
    rcases List.mem_cons.mp hc with rfl | hc
    · rcases hfirst with hfirst | rfl
      · simp [isIdentChar, Char.isAlphanum, hfirst]
      · decide
    · have hcases := hrest c hc
      simp only [isIdentChar, Bool.or_eq_true, beq_iff_eq]
      exact hcases

theorem not_isWhiteSpace_of_isAlpha {c : Char} (h : c.isAlpha ∨ c = '_') : ¬ isWhiteSpace c := by
  rcases h with h | rfl
  · simp only [Char.isAlpha, Char.isUpper, Char.isLower, Bool.or_eq_true, Bool.and_eq_true,
      decide_eq_true_eq, UInt32.le_iff_toNat_le, ge_iff_le] at h
    change (65 ≤ c.toNat ∧ c.toNat ≤ 90) ∨ (97 ≤ c.toNat ∧ c.toNat ≤ 122) at h
    simp only [isWhiteSpace, Bool.or_eq_true, Bool.and_eq_true, decide_eq_true_eq, beq_iff_eq]
    omega
  · decide

/-- The pieces of the text up to the `.entry` directive. -/
def headerPieces (k : PtxModule) : List String :=
  ["//\n// Auto-emitted by tensor-wasm-jit::ptx_emit\n// entry: ", k.entry, "\n", "// ops:   ",
   toString k.numOps, "\n//\n\n", ".version ", k.ptxVersion, "\n.target ", k.target,
   "\n.address_size 64\n\n", ".visible "]

theorem render_eq_header (k : PtxModule) :
    ∃ rest, k.render.toList = (headerPieces k).flatMap String.toList ++
      (".entry".toList ++ (' ' :: (k.entry.toList ++ '(' :: rest))) := by
  have hdirective : (".visible .entry " : String) = ".visible " ++ (".entry" ++ " ") := rfl
  have hopen : ("(\n" : String) = "(" ++ "\n" := rfl
  unfold PtxModule.render headerPieces
  rw [hdirective, hopen]
  simp only [String.toList_append, List.append_assoc, toString, List.flatMap_cons, List.flatMap_nil,
    List.nil_append]
  exact ⟨_, rfl⟩

theorem clearOf_headerPieces {k : PtxModule} (hentry : isValidPtxIdentifier k.entry)
    (hversion : clearOf '.' 'e' k.ptxVersion.toList) (htarget : clearOf '.' 'e' k.target.toList) :
    ∀ piece ∈ headerPieces k, clearOf '.' 'e' piece.toList := by
  obtain ⟨-, -, -, -, hident⟩ := isValidPtxIdentifier_cases hentry
  have hname : clearOf '.' 'e' k.entry.toList :=
    clearOf_of_notMem fun hdot => absurd (hident '.' hdot) (by decide)
  have hops : clearOf '.' 'e' (toString k.numOps).toList :=
    clearOf_of_notMem (dot_notMem_toString k.numOps)
  simp only [headerPieces, List.forall_mem_cons]
  exact ⟨by decide, hname, by decide, by decide, hops, by decide, by decide, hversion, by decide,
    htarget, by decide, by decide, by simp⟩

variable {bp : TensorWasmKernelBlueprint} {cfg : EmitConfig}

/-- **The launcher finds the blueprint's entry symbol** in text the emitter printed. -/
theorem entry_recovered {ptx : EmittedPtx} (hcfg : EntryClear cfg) (h : emitWith bp cfg = .ok ptx) :
    ptxEntryName ptx.text = some bp.entry := by
  obtain ⟨k, hk, hptx⟩ := Lib.bind_eq_ok.mp h
  obtain rfl := Except.ok.inj hptx
  obtain ⟨hvalid, hentry, hversion, htarget, -⟩ := emitModule_eq_ok hk
  obtain ⟨first, rest, hname, hfirst, hident⟩ := isValidPtxIdentifier_cases hvalid
  obtain ⟨tail, hrender⟩ := render_eq_header k
  have hclear := clearOf_flatMap
    (clearOf_headerPieces (hentry ▸ hvalid) (hversion ▸ hcfg.1) (htarget ▸ hcfg.2))
  have hafter : afterFirst ".entry".toList k.render.toList =
      some (' ' :: (bp.entry.toList ++ '(' :: tail)) := by
    rw [hrender, hentry]
    exact (afterFirst_append_of_clearOf hclear _).trans (afterFirst_match _ _ (by decide))
  have htrim : (' ' :: (bp.entry.toList ++ '(' :: tail)).dropWhile isWhiteSpace = bp.entry.toList ++ '(' :: tail := by
    rw [List.dropWhile_cons_of_pos (by decide), hname]
    exact List.dropWhile_cons_of_neg (not_isWhiteSpace_of_isAlpha hfirst)
  unfold ptxEntryName
  rw [hafter]
  dsimp only
  rw [htrim, takeWhile_append_stop hident (by decide), if_neg (by rw [hname]; simp), String.ofList_toList]

/-! ## Geometry and parameters -/

theorem emitWith_geometry {ptx : EmittedPtx} (h : emitWith bp cfg = .ok ptx) :
    ptx.launchGeometry = bp.gridHint.launchGeometry := by
  obtain ⟨k, -, hk⟩ := Lib.bind_eq_ok.mp h
  rw [← Except.ok.inj hk]

/-- **The launch transposes the geometry**: the blueprint's block count is the launch's block
dimension, its block size the launch's grid dimension. -/
theorem launch_transposes_geometry {cached : CachedKernel}
    (hptx : emitWith bp cfg = .ok cached.ptx) {drv : Driver} {base scratch alen rlen : Nat} {request : LaunchRequest}
    (h : launchCachedKernel drv cached base scratch alen rlen = .ok request) :
    (request.blockX, request.gridX) = bp.gridHint.launchGeometry := by
  obtain ⟨entry, -, rfl⟩ := launchCachedKernel_eq_ok h
  show (max cached.ptx.launchGeometry.1 1, max cached.ptx.launchGeometry.2 1) = _
  rw [emitWith_geometry hptx]
  -- both components of a blueprint's geometry are floored at 1 already
  exact Prod.ext (uint32_max_max _ 1) (uint32_max_max _ 1)

/-- The launch passes what the emitted entry declares: the blueprint's grid and block, parameters of
the declared number, order and widths, and in them the argument address, the result address and the
element count. -/
structure LaunchAgrees (bp : TensorWasmKernelBlueprint) (k : PtxModule) (request : LaunchRequest)
    (argsAddr resultsAddr count : Nat) : Prop where
  geometry : (request.gridX, request.blockX) = bp.gridHint.launchGeometry
  widths : request.params.map KernelArg.width = k.params.map PtxParam.width
  values : request.params.map KernelArg.value = [argsAddr, resultsAddr, count]

theorem transposed_agrees_iff {grid block : UInt32} (h : (block, grid) = bp.gridHint.launchGeometry) :
    (grid, block) = bp.gridHint.launchGeometry ↔ bp.gridHint.launchGeometry.1 = bp.gridHint.launchGeometry.2 := by
  rw [← h, Prod.mk.injEq]
  exact ⟨fun heq => heq.2, fun heq => ⟨heq.symm, heq⟩⟩

/-- **No launch of an emitted kernel agrees with the entry the emitter declared**: the second
parameter is four bytes wide where the entry reads an eight-byte pointer. Its geometry agrees only
for a blueprint with as many blocks as threads in a block. -/
theorem launch_never_agrees {bp : TensorWasmKernelBlueprint} {cfg : EmitConfig} {k : PtxModule}
    (hk : emitModule bp cfg = .ok k) {cached : CachedKernel}
    (hptx : emitWith bp cfg = .ok cached.ptx) {drv : Driver} {base scratch alen rlen : Nat}
    {request : LaunchRequest}
    (h : launchCachedKernel drv cached base scratch alen rlen = .ok request) (count : Nat) :
    ¬ LaunchAgrees bp k request ((base + scratch) % 2 ^ 64) ((base + scratch + alen) % 2 ^ 64)
        count ∧
      ((request.gridX, request.blockX) = bp.gridHint.launchGeometry ↔
        bp.gridHint.launchGeometry.1 = bp.gridHint.launchGeometry.2) := by
  refine ⟨?_, transposed_agrees_iff (launch_transposes_geometry hptx h)⟩
  intro hagrees
  obtain ⟨-, -, -, -, hparams⟩ := emitModule_eq_ok hk
  obtain ⟨entry, -, rfl⟩ := launchCachedKernel_eq_ok h
  have hwidths := hagrees.widths
  rw [hparams] at hwidths
  have hlists : [8, 4, 4] = [8, 8, 4] := hwidths
  exact absurd hlists (by decide)

/-! ## One kernel -/

/-- Eight blocks of 128 threads adding two vectors. -/
def vectorAdd : TensorWasmKernelBlueprint :=
  { entry := "vector_add",
    ops := [.loadUnified .f32 1, .loadUnified .f32 1, .vecAdd .f32 1, .storeUnified .f32 1],
    gridHint := ⟨1024, 128⟩, sharedMemBytes := 0 }

theorem vectorAdd_emitted :
    ∃ k, emitModule vectorAdd .default = .ok k ∧
      ∃ cached : CachedKernel, emitWith vectorAdd .default = .ok cached.ptx := by
  obtain ⟨k, hk⟩ : ∃ k, emitModule vectorAdd .default = .ok k := ⟨_, rfl⟩
  exact ⟨k, hk, ⟨7, ⟨k.render, vectorAdd.gridHint.launchGeometry⟩, []⟩, Lib.bind_eq_ok.mpr ⟨k, hk, rfl⟩⟩

theorem vectorAdd_disagrees :
    ∃ k cached, emitModule vectorAdd .default = .ok k ∧ emit vectorAdd = .ok cached.ptx ∧
      vectorAdd.gridHint.launchGeometry = (8, 128) ∧ k.params.map PtxParam.width = [8, 8, 4] ∧
      ∃ request, launchCachedKernel .healthy cached 0x7000000000 65472 32 16 = .ok request ∧
        (request.gridX, request.blockX) = (128, 8) ∧
        request.params = [⟨8, 0x7000000000 + 65472⟩, ⟨4, 32⟩, ⟨4, 16⟩] ∧
        ¬ LaunchAgrees vectorAdd k request (0x7000000000 + 65472) (0x7000000000 + 65504) 4 := by
  obtain ⟨k, hk, cached, hptx⟩ := vectorAdd_emitted
  have hlaunch := launchCachedKernel_healthy (entry_recovered entryClear_default hptx)
    0x7000000000 65472 32 16
  rw [emitWith_geometry hptx] at hlaunch
  refine ⟨k, cached, hk, hptx, rfl, by rw [(emitModule_eq_ok hk).2.2.2.2]; rfl, _, hlaunch, rfl,
    rfl, ?_⟩
  intro hagrees
  have hgrid : (128 : UInt32) = 8 := congrArg Prod.fst hagrees.geometry
  exact absurd hgrid (by decide)

theorem vectorAdd_launch_never_agrees :
    ∃ k cached request, emitModule vectorAdd .default = .ok k ∧
      launchCachedKernel .healthy cached 0x7000000000 65472 32 16 = .ok request ∧
      ¬ LaunchAgrees vectorAdd k request ((0x7000000000 + 65472) % 2 ^ 64)
        ((0x7000000000 + 65472 + 32) % 2 ^ 64) 4 := by
  obtain ⟨k, hk, cached, hptx⟩ := vectorAdd_emitted
  have hlaunch := launchCachedKernel_healthy (entry_recovered entryClear_default hptx)
    0x7000000000 65472 32 16
  exact ⟨k, cached, _, hk, hlaunch, (launch_never_agrees hk hptx hlaunch 4).1⟩

end TensorWasm.Exec
