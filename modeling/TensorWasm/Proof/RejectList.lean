import TensorWasm.Clif.RejectList

/-!
# What passes the reject-list has no loop

The scan that stops at the first rejection and the one that collects them all find the same. A function
without a rejection has only edges that go forward in the layout, so its control-flow graph has no cycle.
-/

namespace TensorWasm.Clif

open List

/-! ## The two scans -/

variable (f : Function)

theorem scanInst_eq (block : Block) (blockIdx : Nat) (rejections : List Rejection) (i : Inst) :
    scanInst f block blockIdx rejections i = rejections ++ (rejectInst f block blockIdx i).toList := by
  unfold scanInst rejectInst
  cases classifyOpcode i.data.opcode with
  | some reason => rfl
  | none =>
    cases backEdgeReason f i blockIdx with
    | some reason => rfl
    | none => exact (append_nil _).symm

theorem scanBlock_eq (rejections : List Rejection) (entry : ClBlock × Nat) :
    scanBlock f rejections entry = rejections ++ entry.1.insts.filterMap (rejectInst f entry.1.block entry.2) := by
  unfold scanBlock
  induction entry.1.insts generalizing rejections with
  | nil => exact (append_nil _).symm
  | cons i insts ih =>
    rw [foldl_cons, ih, scanInst_eq, append_assoc]
    cases hreject : rejectInst f entry.1.block entry.2 i with
    | none => rw [filterMap_cons_none hreject]; rfl
    | some rejection => rw [filterMap_cons_some hreject]; rfl

theorem scanFunction_eq :
    scanFunction f =
      f.layout.zipIdx.flatMap fun entry => entry.1.insts.filterMap (rejectInst f entry.1.block entry.2) := by
  have hscan (rejections : List Rejection) (entries : List (ClBlock × Nat)) :
      entries.foldl (scanBlock f) rejections =
        rejections ++
          entries.flatMap fun entry => entry.1.insts.filterMap (rejectInst f entry.1.block entry.2) := by
    induction entries generalizing rejections with
    | nil => exact (append_nil _).symm
    | cons entry entries ih => rw [foldl_cons, ih, scanBlock_eq, flatMap_cons, append_assoc]
  exact hscan [] f.layout.zipIdx

/-- The early exit finds the first of the reasons. -/
theorem checkFunction_eq_head : checkFunction f = (scanFunction f).head? := by
  rw [scanFunction_eq, List.head?_flatMap]
  unfold checkFunction
  simp only [List.head?_filterMap]

/-! ## Edges -/

/-- An edge between blocks that both stand in the layout. -/
def Function.LaidEdge (f : Function) (a b : Block) : Prop :=
  f.Edge a b ∧ ∃ blk ∈ f.layout, blk.block = b

/-- A block that stands somewhere in the layout is first found there or before. -/
theorem layoutOrder_of_getElem {f : Function} {k : Nat} {blk : ClBlock} (hk : f.layout[k]? = some blk) :
    ∃ j ≤ k, f.layoutOrder blk.block = some j := by
  obtain ⟨hlt, hget⟩ := List.getElem?_eq_some_iff.mp hk
  have hfound : (blk.block == blk.block) = true := beq_self_eq_true _
  cases horder : f.layoutOrder blk.block with
  | none =>
    have hnone := List.findIdx?_eq_none_iff.mp horder blk (mem_of_getElem? hk)
    exact absurd hnone (by simp)
  | some j =>
    refine ⟨j, ?_, rfl⟩
    obtain ⟨hj, -, hbefore⟩ := List.findIdx?_eq_some_iff_getElem.mp horder
    by_contra hkj
    have hmiss := hbefore k (Nat.lt_of_not_le hkj)
    rw [hget] at hmiss
    exact hmiss hfound

/-- Every edge of a function without a rejection goes strictly forward in the layout. -/
theorem laidEdge_forward {f : Function} (h : checkFunction f = none) {a b : Block} (hedge : f.LaidEdge a b) :
    ∃ k j, f.layoutOrder a = some k ∧ f.layoutOrder b = some j ∧ k < j := by
  obtain ⟨⟨blk, hblk, rfl, i, hi, call, hcall, rfl⟩, target, htarget, hblock⟩ := hedge
  obtain ⟨p, hp⟩ := mem_iff_getElem?.mp hblk
  obtain ⟨q, hq⟩ := mem_iff_getElem?.mp htarget
  obtain ⟨k, hkp, hk⟩ := layoutOrder_of_getElem hp
  obtain ⟨j, -, hj⟩ := layoutOrder_of_getElem hq
  rw [hblock] at hj
  exact ⟨k, j, hk, hj, hkp.trans_lt ((not_rejected h hp hi).2 call hcall j hj)⟩

/-- The two scans agree; and what passes them has only forward edges, hence no cycle. -/
theorem accepted_loop_free (f : Function) :
    (checkFunction f = none →
        (∀ a b, f.LaidEdge a b → ∃ k j, f.layoutOrder a = some k ∧ f.layoutOrder b = some j ∧ k < j) ∧
          Lib.Acyclic f.LaidEdge) ∧
      (checkFunction f = none ↔ scanFunction f = []) ∧ checkFunction f = (scanFunction f).head? := by
  refine ⟨?_, ?_, checkFunction_eq_head f⟩
  · intro h
    refine ⟨fun a b => laidEdge_forward h, ?_⟩
    refine Lib.acyclic_of_rank (fun a => (f.layoutOrder a).getD 0) ?_
    intro a b hedge
    obtain ⟨k, j, hk, hj, hlt⟩ := laidEdge_forward h hedge
    rw [hk, hj]
    exact hlt
  · rw [checkFunction_eq_head, List.head?_eq_none_iff]

end TensorWasm.Clif
