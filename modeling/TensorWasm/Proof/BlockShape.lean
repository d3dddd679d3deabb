import TensorWasm.Jit.ClifLower

/-!
# The shape of a lowered block

`infer_block_shape` is documented to refuse a block whose SIMD ops differ in element type or in lane count.
Its scan compares element types only and keeps the lane count of the first SIMD op. `lowerBlockChecked_isOk`
says which blocks are accepted, `uniform_shape_iff` for which of them the documented rule holds.
-/

namespace TensorWasm.Jit

open Lib

/-- The shapes of the SIMD ops of a block, in order. -/
def BlockIR.simdShapes (block : BlockIR) : List (ElemType × UInt32) := block.ops.filterMap Op.shape

/-- The shape an op of a blueprint carries. -/
def TensorWasmOp.shape : TensorWasmOp → Option (ElemType × UInt32)
  | .vecAdd elem lanes | .vecMul elem lanes | .vecFma elem lanes
  | .loadUnified elem lanes | .storeUnified elem lanes => some (elem, lanes)
  | .matMul .. | .barrier => none

/-! ## What a block may be refused for -/

def InBounds (memRefs : List MemRef) (memoryBytes : Nat) : Prop :=
  ∀ r ∈ memRefs, r.offset + r.len < 2 ^ 64 ∧ r.offset + r.len ≤ memoryBytes

/-- Nothing but SIMD ops, loads and stores. -/
def BlockIR.Supported (block : BlockIR) : Prop :=
  ∀ op ∈ block.ops, op.shape ≠ none ∨ op = .load ∨ op = .store

def BlockIR.OneElemType (block : BlockIR) : Prop := ∀ p ∈ block.simdShapes, ∀ q ∈ block.simdShapes, p.1 = q.1

def BlockIR.OneLaneCount (block : BlockIR) : Prop := ∀ p ∈ block.simdShapes, ∀ q ∈ block.simdShapes, p.2 = q.2

/-! ## The scan -/

/-- Once a shape is known, the scan keeps it and compares element types with it. -/
theorem scanShape_some (name : String) (ops : List Op) (seen : ElemType × UInt32) :
    (∀ p ∈ ops.filterMap Op.shape, p.1 = seen.1) ∧ scanShape name ops (some seen) = .ok (some seen) ∨
      (∃ p ∈ ops.filterMap Op.shape, p.1 ≠ seen.1) ∧ ∃ e, scanShape name ops (some seen) = .error e := by
  induction ops with
  | nil => simp [scanShape]
  | cons op ops ih =>
    cases hop : op.shape with
    | none => simpa [scanShape, hop] using ih
    | some cur =>
      by_cases hsame : cur.1 = seen.1
      · simpa [scanShape, hop, hsame] using ih
      · exact .inr ⟨⟨cur, by simp [hop], hsame⟩, by simp [scanShape, hop, Ne.symm hsame]⟩

/-- What the scan finds is the shape of the first SIMD op. -/
theorem scanShape_none (name : String) (ops : List Op) :
    scanShape name ops none = .ok none ∧ ops.filterMap Op.shape = [] ∨
      ∃ first rest later, ops.filterMap Op.shape = first :: rest ∧ later.filterMap Op.shape = rest ∧
        scanShape name ops none = scanShape name later (some first) := by
  induction ops with
  | nil => simp [scanShape]
  | cons op ops ih =>
    cases hop : op.shape with
    | none => simpa [scanShape, hop] using ih
    | some cur => exact .inr ⟨cur, _, ops, by simp [hop], rfl, by simp [scanShape, hop]⟩

variable {block : BlockIR}

/-- The inferred shape, if the element types agree: the first op's, or the default. -/
theorem inferBlockShape_ok (h : block.OneElemType) :
    inferBlockShape block = .ok (block.simdShapes.head?.getD (.f32, defaultLanes)) := by
  unfold inferBlockShape
  rcases scanShape_none block.name block.ops with ⟨hscan, hnil⟩ | ⟨first, rest, later, hshapes, hlater, hscan⟩
  · simp [hscan, BlockIR.simdShapes, hnil]
  · have hcons : block.simdShapes = first :: rest := hshapes
    rcases scanShape_some block.name later first with ⟨-, hok⟩ | ⟨⟨p, hp, hne⟩, -⟩
    · simp [hscan, hok, hcons]
    · refine absurd (h p ?_ first ?_) hne
      · rw [hcons, ← hlater]
        exact List.mem_cons_of_mem _ hp
      · simp [hcons]

variable {mem : ElemType × UInt32}

theorem oneElemType_of_inferBlockShape (h : inferBlockShape block = .ok mem) : block.OneElemType := by
  unfold inferBlockShape at h
  obtain ⟨shape, hscan, -⟩ := bind_eq_ok.mp h
  rcases scanShape_none block.name block.ops with ⟨-, hnil⟩ | ⟨first, rest, later, hshapes, hlater, hsame⟩
  · intro p hp
    simp [BlockIR.simdShapes, hnil] at hp
  · have hcons : block.simdShapes = first :: rest := hshapes
    rcases scanShape_some block.name later first with ⟨hall, -⟩ | ⟨-, e, herror⟩
    · -- every shape has the element type of the first
      have hfirst : ∀ p ∈ block.simdShapes, p.1 = first.1 := by
        intro p hp
        rw [hcons, ← hlater] at hp
        rcases List.mem_cons.mp hp with rfl | hp
        · rfl
        · exact hall p hp
      intro p hp q hq
      rw [hfirst p hp, hfirst q hq]
    · rw [hsame, herror] at hscan
      cases hscan

/-! ## What is accepted -/

theorem shape_lowerOpOf {name : String} {op : Op} {lo : TensorWasmOp}
    (h : lowerOpOf name mem op = .ok lo) : lo.shape = some (op.shape.getD mem) := by
  cases op <;> cases h <;> rfl

theorem supported_of_lowerOpOf {name : String} {op : Op} {lo : TensorWasmOp}
    (h : lowerOpOf name mem op = .ok lo) : op.shape ≠ none ∨ op = .load ∨ op = .store := by
  cases op <;> cases h <;> simp [Op.shape]

theorem lowerOpOf_isOk (name : String) (mem : ElemType × UInt32) {op : Op}
    (h : op.shape ≠ none ∨ op = .load ∨ op = .store) : ∃ lo, lowerOpOf name mem op = .ok lo := by
  cases op <;> simp_all [Op.shape, lowerOpOf]

variable {memRefs : List MemRef} {memoryBytes : Nat}

theorem inBounds_iff :
    InBounds memRefs memoryBytes ↔
      ¬ memRefs.any fun r => decide (2 ^ 64 ≤ r.offset + r.len ∨ memoryBytes < r.offset + r.len) := by
  simp [InBounds]

/-- An accepted block is in bounds, supported and of one element type, and each op of the blueprint has the
shape of its op in the block, or that of the first SIMD op. -/
theorem lowerBlockChecked_spec {bp : TensorWasmKernelBlueprint}
    (h : lowerBlockChecked block memRefs memoryBytes = .ok bp) :
    InBounds memRefs memoryBytes ∧ block.Supported ∧ block.OneElemType ∧
      List.Forall₂ (fun op lo => lo.shape
        = some (op.shape.getD (block.simdShapes.head?.getD (.f32, defaultLanes)))) block.ops bp.ops := by
  unfold lowerBlockChecked at h
  split at h
  · cases h
  · next hbounds =>
    unfold lowerBlock at h
    obtain ⟨mem, hmem, h⟩ := bind_eq_ok.mp h
    obtain ⟨ops, hops, h⟩ := bind_eq_ok.mp h
    cases h
    have hone := oneElemType_of_inferBlockShape hmem
    have hall := mapM_eq_ok hops
    rw [inferBlockShape_ok hone] at hmem
    cases hmem
    refine ⟨inBounds_iff.mpr hbounds, ?_, hone, hall.imp fun op lo hlo => shape_lowerOpOf hlo⟩
    intro op hop
    obtain ⟨lo, -, hlo⟩ := forall₂_left hall hop
    exact supported_of_lowerOpOf hlo

theorem lowerBlockChecked_isOk (hbounds : InBounds memRefs memoryBytes) (hsupported : block.Supported)
    (hone : block.OneElemType) : ∃ bp, lowerBlockChecked block memRefs memoryBytes = .ok bp := by
  have hops : ∀ mem, ∃ ops, block.ops.mapM (lowerOpOf block.name mem) = .ok ops := by
    intro mem
    exact mapM_isOk fun op hop => lowerOpOf_isOk block.name mem (hsupported op hop)
  obtain ⟨ops, hops⟩ := hops (block.simdShapes.head?.getD (.f32, defaultLanes))
  unfold lowerBlockChecked lowerBlock
  rw [if_neg (inBounds_iff.mp hbounds), inferBlockShape_ok hone, ok_bind, hops, ok_bind]
  exact ⟨_, rfl⟩

/-! ## The documented rule -/

/-- An accepted block has one shape, and its blueprint has no other; a block with two is refused. -/
structure UniformShape (block : BlockIR) (memRefs : List MemRef) (memoryBytes : Nat) : Prop where
  accepted : ∀ bp, lowerBlockChecked block memRefs memoryBytes = .ok bp →
    ∃ shape, (∀ p ∈ block.simdShapes, p = shape) ∧ ∀ lo ∈ bp.ops, lo.shape = some shape
  refused : ∀ p ∈ block.simdShapes, ∀ q ∈ block.simdShapes, p.1 ≠ q.1 ∨ p.2 ≠ q.2 →
    ∃ e, lowerBlockChecked block memRefs memoryBytes = .error e

theorem accepted_of_oneLaneCount {bp : TensorWasmKernelBlueprint} (hlanes : block.OneLaneCount)
    (h : lowerBlockChecked block memRefs memoryBytes = .ok bp) :
    ∃ shape, (∀ p ∈ block.simdShapes, p = shape) ∧ ∀ lo ∈ bp.ops, lo.shape = some shape := by
  obtain ⟨-, -, hone, hops⟩ := lowerBlockChecked_spec h
  have hall : ∀ p ∈ block.simdShapes, p = block.simdShapes.head?.getD (.f32, defaultLanes) := by
    intro p hp
    cases hshapes : block.simdShapes with
    | nil => simp [hshapes] at hp
    | cons first rest =>
      have hfirst : first ∈ block.simdShapes := by simp [hshapes]
      exact Prod.ext (hone p hp first hfirst) (hlanes p hp first hfirst)
  refine ⟨_, hall, ?_⟩
  intro lo hlo
  obtain ⟨op, hop, hshape⟩ := forall₂_right hops hlo
  rw [hshape]
  cases hs : op.shape with
  | none => rfl
  | some p => exact congrArg some (hall p (List.mem_filterMap.mpr ⟨op, hop, hs⟩))

/-- The rule holds of a block just when its lanes agree, or something else refuses it. -/
theorem uniform_shape_iff (block : BlockIR) (memRefs : List MemRef) (memoryBytes : Nat) :
    UniformShape block memRefs memoryBytes ↔
      (InBounds memRefs memoryBytes → block.Supported → block.OneElemType → block.OneLaneCount) := by
  constructor
  · intro h hbounds hsupported hone p hp q hq
    obtain ⟨bp, hbp⟩ := lowerBlockChecked_isOk hbounds hsupported hone
    obtain ⟨shape, hshape, -⟩ := h.accepted bp hbp
    rw [hshape p hp, hshape q hq]
  · intro h
    have haccepted : ∀ bp, lowerBlockChecked block memRefs memoryBytes = .ok bp → block.OneLaneCount := by
      intro bp hbp
      obtain ⟨hbounds, hsupported, hone, -⟩ := lowerBlockChecked_spec hbp
      exact h hbounds hsupported hone
    refine ⟨fun bp hbp => accepted_of_oneLaneCount (haccepted bp hbp) hbp, ?_⟩
    intro p hp q hq hne
    cases hlower : lowerBlockChecked block memRefs memoryBytes with
    | error e => exact ⟨e, rfl⟩
    | ok bp =>
      obtain ⟨-, -, hone, -⟩ := lowerBlockChecked_spec hlower
      rcases hne with hne | hne
      · exact absurd (hone p hp q hq) hne
      · exact absurd (haccepted bp hlower p hp q hq) hne

/-- Two lane counts in one block: it is accepted, and its loads and stores have the first. -/
theorem two_lane_counts_accepted :
    let block : BlockIR := ⟨"k", [.load, .v128Add .f32 4, .v128Mul .f32 8, .store], none⟩
    lowerBlockChecked block [] 0 =
        .ok ⟨"k", [.loadUnified .f32 4, .vecAdd .f32 4, .vecMul .f32 8, .storeUnified .f32 4], ⟨256, 128⟩, 0⟩ ∧
      ¬ UniformShape block [] 0 := by
  refine ⟨by decide, ?_⟩
  intro h
  obtain ⟨shape, hshape, -⟩ := h.accepted _ rfl
  exact absurd ((hshape (.f32, 4) (by decide)).trans (hshape (.f32, 8) (by decide)).symm) (by decide)

end TensorWasm.Jit
