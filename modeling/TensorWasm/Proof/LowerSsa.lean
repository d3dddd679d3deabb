import TensorWasm.Proof.LowerSpec

/-!
# SSA form of the lowered function

Every definition of the lowered function is unique, and every value an operation reads is defined
above it: fresh ids are never handed out twice, operands are images of values Cranelift's verifier has
checked, and the two control-flow graphs are the same up to the numbering of the blocks. The pointers of
stack slots are the exception. Their allocation stands at the first access in layout order, so the
function is in SSA form exactly when the block of that access dominates every block that accesses the
slot (`ssaWellFormed_iff`).
-/

namespace TensorWasm.Clif

open Lib List
open InstData (uses args branchDestination)
open LoweredOp (operands targets)

/-! ## Blocks and instructions at their positions -/

variable {f : Function} {L : LoweredFunction} {m : Maps} {i : Inst} {insts : List Inst} {k : Nat} {blk : ClBlock}
  {lb : LoweredBlock} {op : LoweredOp} {ops : List LoweredOp} {v : Value} {d : LoweredValueId} {slot : StackSlot}

/-- The `k`-th block and its image. -/
theorem BlocksLower.at {before : List Inst} {blks : List ClBlock}
    {lbs : List LoweredBlock} (h : BlocksLower f m before blks lbs) (k : Nat) :
    (∀ blk, blks[k]? = some blk → ∃ lb, lbs[k]? = some lb ∧
      BlockLowers f m (before ++ (blks.take k).flatMap (·.insts)) blk lb) ∧
    (∀ lb, lbs[k]? = some lb → ∃ blk, blks[k]? = some blk ∧
      BlockLowers f m (before ++ (blks.take k).flatMap (·.insts)) blk lb) := by
  induction h generalizing k with
  | nil => exact ⟨nofun, nofun⟩
  | @cons before blk blks lb lbs hblock _ ih =>
    cases k with
    | zero =>
      have hnow : BlockLowers f m (before ++ ([] : List ClBlock).flatMap (·.insts)) blk lb := by
        rwa [flatMap_nil, append_nil]
      constructor
      · intro blk' hblk'
        cases hblk'
        exact ⟨lb, rfl, hnow⟩
      · intro lb' hlb'
        cases hlb'
        exact ⟨blk, rfl, hnow⟩
    | succ k =>
      simp only [List.getElem?_cons_succ, take_succ_cons, flatMap_cons, ← append_assoc]
      exact ih k

namespace LoweredAs

/-- The instructions that come before the `k`-th block in layout order. -/
def before (f : Function) (k : Nat) : List Inst := (f.layout.take k).flatMap (·.insts)

theorem block_id (h : LoweredAs f L m) {above : List Inst}
    (hk : f.layout[k]? = some blk) (hb : BlockLowers f m above blk lb) : lb.id = k := by
  have hid := hb.id
  rw [h.blockIds k blk hk] at hid
  exact (Option.some.inj hid).symm

theorem image (h : LoweredAs f L m) (hk : f.layout[k]? = some blk) :
    ∃ lb, L.blocks[k]? = some lb ∧ lb.id = k ∧ BlockLowers f m (before f k) blk lb := by
  obtain ⟨lb, hlb, hb⟩ := (h.blocks.at k).1 blk hk
  exact ⟨lb, hlb, h.block_id hk hb, hb⟩

theorem preimage (h : LoweredAs f L m) (hk : L.blocks[k]? = some lb) :
    ∃ blk, f.layout[k]? = some blk ∧ lb.id = k ∧ BlockLowers f m (before f k) blk lb := by
  obtain ⟨blk, hblk, hb⟩ := (h.blocks.at k).2 lb hk
  exact ⟨blk, hblk, h.block_id hblk hb, hb⟩

end LoweredAs

variable {before : List Inst}

/-- An operation of a block belongs to one of its instructions. -/
theorem InstsLower.of_op {above below : List LoweredOp} (h : InstsLower f m before insts ops)
    (hops : ops = above ++ op :: below) :
    ∃ ipre i ipost opsPre a c, insts = ipre ++ i :: ipost ∧ above = opsPre ++ a ∧
      InstsLower f m before ipre opsPre ∧ InstLowers f m (before ++ ipre) i (a ++ op :: c) ∧
      ∀ v ∈ i.data.uses, v ∈ f.params ++ (before ++ ipre).flatMap (·.results) := by
  induction h generalizing above with
  | nil => exact absurd hops.symm (by simp)
  | @cons before i insts iops rest hi huses hrest ih =>
    rcases append_eq_append_iff.mp hops with ⟨a, ha, hr⟩ | ⟨c, hc, hr⟩
    · -- The operation comes after those of the first instruction.
      obtain ⟨ipre, j, ipost, opsPre, a', c', rfl, rfl, hpre, hj, hju⟩ := ih hr
      refine ⟨i :: ipre, j, ipost, iops ++ opsPre, a', c', rfl, ?_, .cons hi huses hpre, ?_, ?_⟩
      · rw [ha, append_assoc]
      · rwa [append_cons]
      · rwa [append_cons]
    · cases c with
      | nil =>
        rw [nil_append] at hr
        rw [append_nil] at hc
        have hrest : rest = [] ++ op :: below := hr.symm
        obtain ⟨ipre, j, ipost, opsPre, a', c', rfl, hnil, hpre, hj, hju⟩ := ih hrest
        refine ⟨i :: ipre, j, ipost, iops ++ opsPre, a', c', rfl, ?_, .cons hi huses hpre, ?_, ?_⟩
        · rw [append_assoc, ← hnil, append_nil, hc]
        · rwa [append_cons]
        · rwa [append_cons]
      | cons op' c =>
        obtain ⟨rfl, rfl⟩ := List.cons.inj hr
        refine ⟨[], i, insts, [], above, c, rfl, rfl, .nil, ?_, ?_⟩
        · rw [append_nil, ← hc]
          exact hi
        · rwa [append_nil]

/-- The operations of an instruction of a block, with those before. -/
theorem InstsLower.of_inst {ipre ipost : List Inst} (h : InstsLower f m before (ipre ++ i :: ipost) ops) :
    ∃ opsPre iops opsPost, ops = opsPre ++ (iops ++ opsPost) ∧ InstsLower f m before ipre opsPre ∧
      InstLowers f m (before ++ ipre) i iops ∧
      ∀ v ∈ i.data.uses, v ∈ f.params ++ (before ++ ipre).flatMap (·.results) := by
  induction ipre generalizing before ops with
  | nil =>
    cases h with
    | @cons _ _ _ iops rest hi huses hrest =>
      refine ⟨[], iops, rest, rfl, .nil, ?_, ?_⟩
      · rwa [append_nil]
      · rwa [append_nil]
  | cons j ipre ih =>
    cases h with
    | @cons _ _ _ jops rest hj huses hrest =>
      obtain ⟨opsPre, iops, opsPost, rfl, hpre, hi, hiuses⟩ := ih hrest
      refine ⟨jops ++ opsPre, iops, opsPost, ?_, .cons hj huses hpre, ?_, ?_⟩
      · rw [append_assoc]
      · rwa [append_cons]
      · rwa [append_cons]

/-! ## What an instruction reads and defines -/

theorem eq_of_singleton_split {α : Type} {x y : α} {a c : List α} (h : [x] = a ++ y :: c) : a = [] ∧ y = x := by
  cases a with
  | nil =>
    cases h
    exact ⟨rfl, rfl⟩
  | cons z a => simp at h

/-- An operand is the image of a value the instruction reads, or the pointer of the slot it accesses,
which an earlier instruction or an operation above has allocated. -/
def OperandSource (m : Maps) (before : List Inst) (i : Inst) (a : List LoweredOp) (d : LoweredValueId) : Prop :=
  (∃ v ∈ i.data.uses, m.value v = some d) ∨
    ∃ slot, i.data.slot? = some slot ∧ m.slot slot = some d ∧ (slot ∈ touched before ∨ d ∈ opResults a)

/-- The one operation of an instruction that accesses no slot reads images of its operands. -/
theorem source_of_single {lop : LoweredOp} {a c : List LoweredOp}
    (hops : [lop] = a ++ op :: c) (h : ∀ d ∈ lop.operands, ∃ v ∈ i.data.uses, m.value v = some d)
    (hd : d ∈ op.operands) : OperandSource m before i a d := by
  obtain ⟨-, rfl⟩ := eq_of_singleton_split hops
  exact .inl (h d hd)

/-- The access that follows the allocation of a slot, if there is one. -/
theorem source_of_access {ty : LoweredType} {p : LoweredValueId} {lop : LoweredOp}
    {a c : List LoweredOp} (hslot : i.data.slot? = some slot) (hp : m.slot slot = some p)
    (hops : allocaOps f before slot ty p ++ [lop] = a ++ op :: c)
    (h : ∀ d ∈ lop.operands, d = p ∨ ∃ v ∈ i.data.uses, m.value v = some d)
    (hd : d ∈ op.operands) : OperandSource m before i a d := by
  unfold allocaOps at hops
  split at hops
  · rename_i htouched
    obtain ⟨rfl, rfl⟩ := eq_of_singleton_split hops
    rcases h d hd with rfl | hv
    · exact .inr ⟨slot, hslot, hp, .inl htouched⟩
    · exact .inl hv
  · cases a with
    | nil =>
      cases hops
      cases hd
    | cons x a =>
      obtain ⟨rfl, htail⟩ := List.cons.inj hops
      obtain ⟨rfl, rfl⟩ := eq_of_singleton_split htail
      rcases h d hd with rfl | hv
      · exact .inr ⟨slot, hslot, hp, .inr (mem_singleton_self d)⟩
      · exact .inl hv

variable (h : InstLowers f m before i ops)

include h

theorem InstLowers.operand {a c : List LoweredOp} (hops : ops = a ++ op :: c)
    (hd : d ∈ op.operands) : OperandSource m before i a d := by
  cases h with
  | arith _ _ hx hy _ | vMin _ hx hy _ | vMax _ hx hy _ =>
    refine source_of_single hops ?_ hd
    simp [operands, uses, args, branchDestination, hx, hy]
  | vSplat _ hx _ | bitcast _ _ hx _ | resize _ _ _ _ hx _ | load _ hx _ =>
    refine source_of_single hops ?_ hd
    simp [operands, uses, args, branchDestination, hx]
  | @vTruth all _ _ _ _ _ hx _ =>
    refine source_of_single hops ?_ hd
    cases all <;>
      simp [truthOp, operands, uses, args, branchDestination, hx]
  | vSelect _ hc hx hy _ | select _ hc hx hy _ =>
    refine source_of_single hops ?_ hd
    simp [operands, uses, args, branchDestination, hc, hx, hy]
  | store _ hv hx =>
    refine source_of_single hops ?_ hd
    simp [operands, uses, args, branchDestination, hv, hx]
  | stackLoad _ hslot _ =>
    refine source_of_access rfl hslot hops ?_ hd
    simp [operands]
  | stackStore _ hv hslot =>
    refine source_of_access rfl hslot hops ?_ hd
    simp [operands, uses, args, branchDestination, hv]
  | jump _ hargs =>
    refine source_of_single hops ?_ hd
    simpa [operands, uses, args, branchDestination] using
      fun d' hd' => forall₂_right hargs hd'
  | brif hc _ _ hthen helse =>
    refine source_of_single hops ?_ hd
    intro d' hd'
    simp only [operands, mem_cons, mem_append] at hd'
    simp only [uses, args, branchDestination, flatMap_cons, flatMap_nil, append_nil, mem_append]
    rcases hd' with rfl | hd' | hd'
    · exact ⟨_, .inl (mem_singleton_self _), hc⟩
    · obtain ⟨v, hv, hm⟩ := forall₂_right hthen hd'
      exact ⟨v, .inr (.inl hv), hm⟩
    · obtain ⟨v, hv, hm⟩ := forall₂_right helse hd'
      exact ⟨v, .inr (.inr hv), hm⟩
  | brTable hx _ _ _ =>
    refine source_of_single hops ?_ hd
    simp [operands, uses, args, hx]
  | ret hargs =>
    refine source_of_single hops ?_ hd
    simpa [operands, uses, args, branchDestination] using
      fun d' hd' => forall₂_right hargs hd'

/-- The results of an instruction are results of its operations. -/
theorem InstLowers.result (hv : v ∈ i.results) : ∃ d, m.value v = some d ∧ d ∈ opResults ops := by
  cases h with
  | arith _ _ _ _ hd | vMin _ _ _ hd | vMax _ _ _ hd | vSplat _ _ hd | vSelect _ _ _ _ hd
  | select _ _ _ _ hd | bitcast _ _ _ hd | resize _ _ _ _ _ hd | load _ _ hd =>
    obtain rfl := mem_singleton.mp hv
    exact ⟨_, hd, mem_singleton_self _⟩
  | @vTruth all _ _ _ _ _ _ hd =>
    obtain rfl := mem_singleton.mp hv
    refine ⟨_, hd, ?_⟩
    cases all <;> exact mem_singleton_self _
  | stackLoad _ _ hd =>
    obtain rfl := mem_singleton.mp hv
    refine ⟨_, hd, ?_⟩
    rw [opResults_append]
    exact mem_append_right _ (mem_singleton_self _)
  | store _ _ _ | stackStore _ _ _ | jump _ _ | brif _ _ _ _ _ | brTable _ _ _ _ | ret _ =>
    cases hv

/-- The pointer of a slot: the first access allocates it, and every access reads it. -/
theorem InstLowers.pointer (hslot : i.data.slot? = some slot) :
    ∃ p, m.slot slot = some p ∧ (slot ∉ touched before → p ∈ opResults ops) ∧
      ∃ a op c, ops = a ++ op :: c ∧ p ∈ op.operands := by
  have hfirst : ∀ {ty : LoweredType} {p : LoweredValueId} {lop : LoweredOp},
      slot ∉ touched before → p ∈ opResults (allocaOps f before slot ty p ++ [lop]) := by
    intro ty p lop hnot
    rw [allocaOps, if_neg hnot, opResults_append]
    exact mem_append_left _ (mem_singleton_self p)
  cases h with
  | stackLoad _ hp _ =>
    cases hslot
    exact ⟨_, hp, hfirst, _, _, [], rfl, mem_singleton_self _⟩
  | stackStore _ _ hp =>
    cases hslot
    exact ⟨_, hp, hfirst, _, _, [], rfl, mem_cons_of_mem _ (mem_singleton_self _)⟩
  | arith _ _ _ _ _ | vMin _ _ _ _ | vMax _ _ _ _ | vSplat _ _ _ | vTruth _ _ _
  | vSelect _ _ _ _ _ | select _ _ _ _ _ | bitcast _ _ _ _ | resize _ _ _ _ _ _ | load _ _ _
  | store _ _ _ | jump _ _ | brif _ _ _ _ _ | brTable _ _ _ _ | ret _ => cases hslot

/-- The targets of an instruction's operations are the images of its destinations. -/
theorem InstLowers.target (t : LoweredBlockId) :
    (∃ op ∈ ops, t ∈ op.targets) ↔ ∃ call ∈ i.data.branchDestination, m.block call.block = some t := by
  cases h with
  | jump ht _ =>
    simp only [targets, branchDestination, mem_singleton, exists_eq_left, ht, Option.some.injEq]
    exact eq_comm
  | brif _ ht he _ _ =>
    simp only [targets, branchDestination, mem_cons, not_mem_nil,
      or_false, exists_eq_left, exists_eq_or_imp, ht, he, Option.some.injEq]
    rw [eq_comm, @eq_comm _ t]
  | @brTable x default table value target cases _ ht _ hcases =>
    simp only [targets, branchDestination, mem_cons, not_mem_nil,
      or_false, exists_eq_left, exists_eq_or_imp, ht, Option.some.injEq, mem_map]
    refine or_congr eq_comm ?_
    constructor
    · rintro ⟨c, hc, rfl⟩
      obtain ⟨k, hk⟩ := mem_iff_getElem?.mp hc
      have hlt : k < table.length := by
        rw [← hcases.1]
        exact (List.getElem?_eq_some_iff.mp hk).1
      obtain ⟨-, t', ht', hcase⟩ := hcases.2 k table[k] (List.getElem?_eq_getElem hlt)
      rw [hk] at hcase
      cases hcase
      exact ⟨table[k], getElem_mem hlt, ht'⟩
    · rintro ⟨call, hcall, hblock⟩
      obtain ⟨k, hk⟩ := mem_iff_getElem?.mp hcall
      obtain ⟨-, t', ht', hcase⟩ := hcases.2 k call hk
      rw [hblock] at ht'
      cases ht'
      exact ⟨_, mem_of_getElem? hcase, rfl⟩
  | @vTruth all =>
    cases all <;> simp [truthOp, targets, branchDestination]
  | stackLoad _ _ _ | stackStore _ _ _ =>
    unfold allocaOps
    split <;> simp [targets, branchDestination]
  | arith _ _ _ _ _ | vMin _ _ _ _ | vMax _ _ _ _ | vSplat _ _ _
  | vSelect _ _ _ _ _ | select _ _ _ _ _ | bitcast _ _ _ _ | resize _ _ _ _ _ _ | load _ _ _
  | store _ _ _ | ret _ => simp [targets, branchDestination]

omit h

theorem InstsLower.result (h : InstsLower f m before insts ops)
    (hv : v ∈ insts.flatMap (·.results)) : ∃ d, m.value v = some d ∧ d ∈ opResults ops := by
  obtain ⟨i, hi, hvi⟩ := mem_flatMap.mp hv
  obtain ⟨ipre, ipost, rfl⟩ := append_of_mem hi
  obtain ⟨opsPre, iops, opsPost, rfl, -, hlow, -⟩ := h.of_inst
  obtain ⟨d, hd, hmem⟩ := hlow.result hvi
  refine ⟨d, hd, ?_⟩
  rw [opResults_append, opResults_append]
  exact mem_append_right _ (mem_append_left _ hmem)

theorem touched_append (xs ys : List Inst) : touched (xs ++ ys) = touched xs ++ touched ys :=
  filterMap_append

/-- The first instruction of a list that accesses a slot. -/
theorem first_access (h : slot ∈ touched insts) :
    ∃ ipre i ipost, insts = ipre ++ i :: ipost ∧ i.data.slot? = some slot ∧ slot ∉ touched ipre := by
  induction insts with
  | nil => cases h
  | cons j insts ih =>
    by_cases hj : j.data.slot? = some slot
    · exact ⟨[], j, insts, rfl, hj, not_mem_nil⟩
    · have hrest : slot ∈ touched insts := by
        obtain ⟨i, hi, hslot⟩ := mem_filterMap.mp h
        rcases mem_cons.mp hi with rfl | hi
        · exact absurd hslot hj
        · exact mem_filterMap.mpr ⟨i, hi, hslot⟩
      obtain ⟨ipre, i, ipost, rfl, hi, hnot⟩ := ih hrest
      refine ⟨j :: ipre, i, ipost, rfl, hi, fun hmem => ?_⟩
      obtain ⟨i', hi', hslot⟩ := mem_filterMap.mp hmem
      rcases mem_cons.mp hi' with rfl | hi'
      · exact hj hslot
      · exact hnot (mem_filterMap.mpr ⟨i', hi', hslot⟩)

/-- The allocation of a slot stands in the block of its first access. -/
theorem InstsLower.allocates (h : InstsLower f m before insts ops) (hslot : slot ∈ touched insts)
    (hnew : slot ∉ touched before) : ∃ p, m.slot slot = some p ∧ p ∈ opResults ops := by
  obtain ⟨ipre, i, ipost, rfl, hi, hnot⟩ := first_access hslot
  obtain ⟨opsPre, iops, opsPost, rfl, -, hlow, -⟩ := h.of_inst
  have hfirst : slot ∉ touched (before ++ ipre) := by
    rw [touched_append]
    exact fun hmem => (mem_append.mp hmem).elim hnew hnot
  obtain ⟨p, hp, halloc, -⟩ := hlow.pointer hi
  refine ⟨p, hp, ?_⟩
  rw [opResults_append, opResults_append]
  exact mem_append_right _ (mem_append_left _ (halloc hfirst))

/-! ## The two control-flow graphs -/

/-- Every destination is a block of the layout whose parameters take the arguments. -/
theorem Verified.callTyped (hv : Verified f) (hi : i ∈ f.insts)
    {call : BlockCall} (hcall : call ∈ i.data.branchDestination) : f.CallTyped call := by
  have htyped := hv.typed i hi
  unfold Function.InstTyped at htyped
  cases hdata : i.data with
  | jump destination =>
    rw [hdata] at htyped hcall
    rw [mem_singleton.mp hcall]
    exact htyped.2
  | brif arg thenCall elseCall =>
    rw [hdata] at htyped hcall
    rcases mem_cons.mp hcall with rfl | hcall
    · exact htyped.2.2.1
    · rw [mem_singleton.mp hcall]
      exact htyped.2.2.2
  | brTable arg default table =>
    rw [hdata] at htyped hcall
    rcases mem_cons.mp hcall with rfl | hcall
    · exact htyped.2.2.1
    · exact htyped.2.2.2 call hcall
  | _ =>
    rw [hdata] at hcall
    cases hcall

/-- The blocks of the layout. -/
def Function.nodes (f : Function) : Set Block := fun B => ∃ blk ∈ f.layout, blk.block = B

/-- The number a block is lowered to. -/
def Maps.number (m : Maps) (B : Block) : LoweredBlockId := (m.block B).getD 0

namespace LoweredAs

theorem number_at (h : LoweredAs f L m) (hk : f.layout[k]? = some blk) : m.number blk.block = k := by
  unfold Maps.number
  rw [h.blockIds k blk hk]
  rfl

theorem number_injOn (h : LoweredAs f L m) : Set.InjOn m.number f.nodes := by
  rintro _ ⟨a, ha, rfl⟩ _ ⟨b, hb, rfl⟩ hab
  obtain ⟨j, hj⟩ := mem_iff_getElem?.mp ha
  obtain ⟨k, hk⟩ := mem_iff_getElem?.mp hb
  rw [h.number_at hj, h.number_at hk] at hab
  subst hab
  rw [hj] at hk
  cases hk
  rfl

theorem edge_closed (hv : Verified f) (a b : Block) (_ : a ∈ f.nodes) (hab : f.Edge a b) : b ∈ f.nodes := by
  obtain ⟨blk, hblk, -, i, hi, call, hcall, rfl⟩ := hab
  obtain ⟨target, htarget, hblock, -⟩ :=
    hv.callTyped (mem_flatMap.mpr ⟨blk, hblk, hi⟩) hcall
  exact ⟨target, htarget, hblock⟩

/-- An edge goes from a block to an image of one of its destinations. -/
theorem edge_iff (h : LoweredAs f L m) (hk : f.layout[k]? = some blk) (t : LoweredBlockId) :
    L.Edge k t ↔ ∃ i ∈ blk.insts, ∃ call ∈ i.data.branchDestination, m.block call.block = some t := by
  obtain ⟨lb, hlb, hid, hb⟩ := h.image hk
  constructor
  · rintro ⟨lb', hlb', hid', op, hop, ht⟩
    obtain ⟨j, hj⟩ := mem_iff_getElem?.mp hlb'
    obtain ⟨-, -, hidj, -⟩ := h.preimage hj
    have hjk : j = k := hidj.symm.trans hid'
    rw [hjk, hlb] at hj
    cases hj
    obtain ⟨above, below, hops⟩ := append_of_mem hop
    obtain ⟨ipre, i, ipost, opsPre, a, c, hinsts, -, -, hlow, -⟩ := hb.insts.of_op hops
    obtain ⟨call, hcall, hblock⟩ := (hlow.target t).mp
      ⟨op, mem_append_right _ mem_cons_self, ht⟩
    refine ⟨i, ?_, call, hcall, hblock⟩
    rw [hinsts]
    exact mem_append_right _ mem_cons_self
  · rintro ⟨i, hi, call, hcall, hblock⟩
    obtain ⟨ipre, ipost, hinsts⟩ := append_of_mem hi
    have hinstsLower := hb.insts
    rw [hinsts] at hinstsLower
    obtain ⟨opsPre, iops, opsPost, hops, -, hlow, -⟩ := hinstsLower.of_inst
    obtain ⟨op, hop, ht⟩ := (hlow.target t).mpr ⟨call, hcall, hblock⟩
    refine ⟨lb, mem_of_getElem? hlb, hid, op, ?_, ht⟩
    rw [hops]
    exact mem_append_right _ (mem_append_left _ hop)

/-- Dominance is the same in both graphs. -/
theorem dominates_iff (h : LoweredAs f L m) (hv : Verified f) {j : Nat} {d u : ClBlock} (hj : f.layout[j]? = some d)
    (hk : f.layout[k]? = some u) : L.Dominates j k ↔ f.Dominates d.block u.block := by
  obtain ⟨entry, rest, hlayout⟩ := exists_cons_of_ne_nil h.nonempty
  have hzero : f.layout[0]? = some entry := by
    rw [hlayout]
    rfl
  have hhead : ∀ blk ∈ f.layout.head?, blk = entry := by
    intro blk hblk
    rw [hlayout] at hblk
    exact (Option.some.inj hblk).symm
  have hentry : entry.block ∈ f.nodes := ⟨entry, mem_of_getElem? hzero, rfl⟩
  have hedge : ∀ a b, a ∈ f.nodes → f.Edge a b → L.Edge (m.number a) (m.number b) := by
    rintro _ b ⟨a, ha, rfl⟩ ⟨a', ha', hsame, i, hi, call, hcall, rfl⟩
    obtain ⟨ka, hka⟩ := mem_iff_getElem?.mp ha'
    obtain ⟨target, htarget, hblock, -⟩ :=
      hv.callTyped (mem_flatMap.mpr ⟨a', ha', hi⟩) hcall
    obtain ⟨kt, hkt⟩ := mem_iff_getElem?.mp htarget
    rw [← hsame, h.number_at hka, ← hblock, h.number_at hkt]
    refine (h.edge_iff hka kt).mpr ⟨i, hi, call, hcall, ?_⟩
    rw [← hblock]
    exact h.blockIds kt target hkt
  have hback : ∀ a y, a ∈ f.nodes → L.Edge (m.number a) y → ∃ b, y = m.number b ∧ f.Edge a b := by
    rintro _ y ⟨a, ha, rfl⟩ hy
    obtain ⟨ka, hka⟩ := mem_iff_getElem?.mp ha
    rw [h.number_at hka] at hy
    obtain ⟨i, hi, call, hcall, hblock⟩ := (h.edge_iff hka y).mp hy
    refine ⟨call.block, ?_, a, ha, rfl, i, hi, call, hcall, rfl⟩
    rw [Maps.number, hblock]
    rfl
  have hmap := dominates_map_iff hentry (edge_closed hv) h.number_injOn hedge hback
    ⟨d, mem_of_getElem? hj, rfl⟩ ⟨u, mem_of_getElem? hk, rfl⟩
  rw [h.number_at hzero, h.number_at hj, h.number_at hk] at hmap
  unfold LoweredFunction.Dominates
  rw [h.entry, hmap]
  constructor
  · intro hdom blk hblk
    rw [hhead blk hblk]
    exact hdom
  · intro hdom
    exact hdom entry (by rw [hlayout]; rfl)

end LoweredAs

/-! ## Stack slots -/

/-- In a list of lists without repetition, an element belongs to one of the lists only. -/
theorem flatMap_index_unique {α β : Type} {l : List α} {g : α → List β} (h : (l.flatMap g).Nodup) {i j : Nat}
    {a b : α} (hi : l[i]? = some a) (hj : l[j]? = some b) {x : β} (ha : x ∈ g a) (hb : x ∈ g b) : i = j := by
  obtain ⟨hilt, rfl⟩ := List.getElem?_eq_some_iff.mp hi
  obtain ⟨hjlt, rfl⟩ := List.getElem?_eq_some_iff.mp hj
  have hpair := pairwise_iff_getElem.mp (nodup_flatMap.mp h).2
  rcases Nat.lt_trichotomy i j with hlt | heq | hgt
  · exact absurd hb (hpair i j hilt hjlt hlt ha)
  · exact heq
  · exact absurd ha (hpair j i hjlt hilt hgt hb)

/-- The blocks that access a slot, in layout order. -/
def Function.accessors (f : Function) (slot : StackSlot) : List Block :=
  (f.layout.filter fun blk => decide (slot ∈ touched blk.insts)).map (·.block)

/-- The block of the first access in layout order dominates every block that accesses the slot. -/
def Function.SlotsDominated (f : Function) : Prop :=
  ∀ slot, ∀ first ∈ (f.accessors slot).head?, ∀ u ∈ f.accessors slot, f.Dominates first u

/-- The first block that accesses a slot. -/
theorem first_accessor (hk : f.layout[k]? = some blk) (hslot : slot ∈ touched blk.insts) :
    ∃ j first, j ≤ k ∧ f.layout[j]? = some first ∧ slot ∈ touched first.insts ∧
      slot ∉ touched (LoweredAs.before f j) ∧ (f.accessors slot).head? = some first.block := by
  have hsome : ∃ first, f.layout.find? (fun b => decide (slot ∈ touched b.insts)) = some first := by
    refine Option.isSome_iff_exists.mp ?_
    rw [List.find?_isSome]
    exact ⟨blk, mem_of_getElem? hk, decide_eq_true hslot⟩
  obtain ⟨first, hfirst⟩ := hsome
  obtain ⟨htouch, pre, post, hlayout, hpre⟩ := List.find?_eq_some_iff_append.mp hfirst
  have hnot : ∀ b ∈ pre, slot ∉ touched b.insts := by
    intro b hb hmem
    have hb := hpre b hb
    rw [decide_eq_true hmem] at hb
    cases hb
  have hj : f.layout[pre.length]? = some first := by
    rw [hlayout]
    simp
  refine ⟨pre.length, first, ?_, hj, of_decide_eq_true htouch, ?_, ?_⟩
  · by_contra hlt
    have hmem : blk ∈ pre := by
      rw [hlayout, List.getElem?_append_left (Nat.lt_of_not_le hlt)] at hk
      exact mem_of_getElem? hk
    exact hnot blk hmem hslot
  · intro hmem
    obtain ⟨i, hi, hsl⟩ := mem_filterMap.mp hmem
    obtain ⟨b, hb, hib⟩ := mem_flatMap.mp hi
    rw [hlayout, take_left' rfl] at hb
    exact hnot b hb (mem_filterMap.mpr ⟨i, hib, hsl⟩)
  · unfold Function.accessors
    rw [List.head?_map, List.head?_filter, hfirst]
    rfl

theorem mem_accessors (hblk : blk ∈ f.layout) (hslot : slot ∈ touched blk.insts) : blk.block ∈ f.accessors slot :=
  mem_map.mpr ⟨blk, mem_filter.mpr ⟨hblk, decide_eq_true hslot⟩, rfl⟩

/-- An unreachable block is dominated by every block. -/
theorem dominates_of_not_reachable {d u : Block} (h : ¬ f.Reachable u) : f.Dominates d u :=
  fun blk hblk p hp => absurd ⟨blk, hblk, p, hp⟩ h

/-- A block of the layout is the only one with its name. -/
theorem Verified.index_unique (hv : Verified f) {j : Nat} {a b : ClBlock}
    (hj : f.layout[j]? = some a) (hk : f.layout[k]? = some b) (hab : a.block = b.block) : j = k := by
  have hj' : (f.layout.map (·.block))[j]? = some a.block := by
    rw [List.getElem?_map, hj]
    rfl
  have hk' : (f.layout.map (·.block))[k]? = some a.block := by
    rw [List.getElem?_map, hk, hab]
    rfl
  have hlt : j < (f.layout.map (·.block)).length := (List.getElem?_eq_some_iff.mp hj').1
  exact (List.getElem?_inj hlt hv.blocks_nodup).mp (hj'.trans hk'.symm)

/-- What an instruction of an accepted function reads is available, in unreachable blocks too: there
the order of the walk stands in for the verifier. -/
theorem Verified.available_of_scope (hv : Verified f) {ipre ipost : List Inst} (hk : f.layout[k]? = some blk)
    (hinsts : blk.insts = ipre ++ i :: ipost) (hi : v ∈ i.data.uses)
    (hscope : v ∈ f.params ++ (LoweredAs.before f k ++ ipre).flatMap (·.results)) : f.Available blk ipre v := by
  by_cases hreach : f.Reachable blk.block
  · exact hv.available blk (mem_of_getElem? hk) ipre i ipost hinsts v hi hreach
  · -- Some block before this one, or this one, defines the value.
    have hother : ∀ j other, f.layout[j]? = some other → j ≠ k → v ∈ other.defs → f.Available blk ipre v := by
      intro j other hj hne hdef
      exact .inr (.inr ⟨other, mem_of_getElem? hj, fun hsame => hne (hv.index_unique hj hk hsame),
        hdef, dominates_of_not_reachable hreach⟩)
    rw [flatMap_append] at hscope
    rcases mem_append.mp hscope with hparam | hresult
    · obtain ⟨other, hmem, hparam⟩ := mem_flatMap.mp hparam
      obtain ⟨j, hj⟩ := mem_iff_getElem?.mp hmem
      by_cases hjk : j = k
      · rw [hjk, hk] at hj
        cases hj
        exact .inl hparam
      · exact hother j other hj hjk (mem_append_left _ hparam)
    · rcases mem_append.mp hresult with hearlier | habove
      · obtain ⟨i', hi', hres⟩ := mem_flatMap.mp hearlier
        obtain ⟨other, hmem, hi'⟩ := mem_flatMap.mp hi'
        obtain ⟨j, hj⟩ := mem_iff_getElem?.mp hmem
        rw [List.getElem?_take] at hj
        split at hj
        · rename_i hjk
          exact hother j other hj (Nat.ne_of_lt hjk)
            (mem_append_right _ (mem_flatMap.mpr ⟨i', hi', hres⟩))
        · cases hj
      · exact .inr (.inl habove)

namespace LoweredAs

/-- A definition of a block is lowered to a definition of its image. -/
theorem def_image (_ : LoweredAs f L m) {above : List Inst} (hb : BlockLowers f m above blk lb) (hv : v ∈ blk.defs)
    (hd : m.value v = some d) : d ∈ lb.paramIds ∨ d ∈ opResults lb.ops := by
  rcases mem_append.mp hv with hparam | hresult
  · left
    obtain ⟨p, hp, hid, -⟩ := forall₂_left hb.params hparam
    rw [hd] at hid
    cases hid
    exact mem_map_of_mem hp
  · right
    obtain ⟨d', hd', hmem⟩ := hb.insts.result hresult
    rw [hd] at hd'
    cases hd'
    exact hmem

/-- Under the condition on slots, an operand is defined above its use. -/
theorem dominated (h : LoweredAs f L m) (hv : Verified f) (hslots : f.SlotsDominated) (hlb : lb ∈ L.blocks)
    {above below : List LoweredOp} (hops : lb.ops = above ++ op :: below) (hd : d ∈ op.operands) :
    d ∈ lb.paramIds ∨ d ∈ opResults above ∨
      ∃ other ∈ L.blocks, other.id ≠ lb.id ∧ (d ∈ other.paramIds ∨ d ∈ opResults other.ops) ∧
        L.Dominates other.id lb.id := by
  obtain ⟨k, hk⟩ := mem_iff_getElem?.mp hlb
  obtain ⟨blk, hblk, hid, hb⟩ := h.preimage hk
  obtain ⟨ipre, i, ipost, opsPre, a, c, hinsts, rfl, hpre, hlow, hscope⟩ := hb.insts.of_op hops
  rw [hid]
  -- A definition in another block that dominates this one.
  have helsewhere : ∀ j other, f.layout[j]? = some other → j ≠ k →
      (∀ lb', BlockLowers f m (LoweredAs.before f j) other lb' → d ∈ lb'.paramIds ∨ d ∈ opResults lb'.ops) →
      f.Dominates other.block blk.block →
      ∃ other ∈ L.blocks, other.id ≠ k ∧ (d ∈ other.paramIds ∨ d ∈ opResults other.ops) ∧
        L.Dominates other.id k := by
    intro j other hj hne hdef hdom
    obtain ⟨lb', hlb', hid', hb'⟩ := h.image hj
    refine ⟨lb', mem_of_getElem? hlb', ?_, hdef lb' hb', ?_⟩
    · rwa [hid']
    · rw [hid']
      exact (h.dominates_iff hv hj hblk).mpr hdom
  rcases hlow.operand rfl hd with ⟨v, hvuse, hvd⟩ | ⟨slot, hslot, hp, hsrc⟩
  · rcases hv.available_of_scope hblk hinsts hvuse (hscope v hvuse) with
      hparam | hresult | ⟨other, hmem, hne, hdef, hdom⟩
    · obtain ⟨p, hp, hpd, -⟩ := forall₂_left hb.params hparam
      rw [hvd] at hpd
      cases hpd
      exact .inl (mem_map_of_mem hp)
    · obtain ⟨d', hd', hres⟩ := hpre.result hresult
      rw [hvd] at hd'
      cases hd'
      right
      left
      rw [opResults_append]
      exact mem_append_left _ hres
    · obtain ⟨j, hj⟩ := mem_iff_getElem?.mp hmem
      right
      right
      refine helsewhere j other hj ?_ (fun lb' hb' => h.def_image hb' hdef hvd) hdom
      rintro rfl
      rw [hblk] at hj
      cases hj
      exact hne rfl
  · right
    have haccess : slot ∈ touched blk.insts := by
      rw [hinsts]
      exact mem_filterMap.mpr ⟨i, mem_append_right _ mem_cons_self, hslot⟩
    obtain ⟨j, first, hjk, hj, hfirst, hnot, hhead⟩ := first_accessor hblk haccess
    rcases Nat.lt_or_eq_of_le hjk with hlt | rfl
    · -- An earlier block allocates the slot, and dominates this one.
      right
      refine helsewhere j first hj (Nat.ne_of_lt hlt) (fun lb' hb' => ?_) ?_
      · obtain ⟨p, hp', hmem⟩ := hb'.insts.allocates hfirst hnot
        rw [hp] at hp'
        cases hp'
        exact .inr hmem
      · exact hslots slot first.block hhead blk.block
          (mem_accessors (mem_of_getElem? hblk) haccess)
    · -- This block allocates the slot, and does so above the use.
      left
      rw [opResults_append]
      rcases hsrc with htouched | hmem
      · rw [touched_append] at htouched
        have hpreTouched := (mem_append.mp htouched).resolve_left hnot
        obtain ⟨p, hp', hmem⟩ := hpre.allocates hpreTouched hnot
        rw [hp] at hp'
        cases hp'
        exact mem_append_left _ hmem
      · exact mem_append_right _ hmem

/-- In SSA form, the block that allocates a slot dominates every block that accesses it. -/
theorem slotsDominated (h : LoweredAs f L m) (hv : Verified f) (hssa : L.SsaWellFormed) : f.SlotsDominated := by
  intro slot first hfirst u hu
  obtain ⟨blk, hfilter, rfl⟩ := mem_map.mp hu
  obtain ⟨hmem, htouch⟩ := mem_filter.mp hfilter
  have haccess : slot ∈ touched blk.insts := of_decide_eq_true htouch
  obtain ⟨k, hk⟩ := mem_iff_getElem?.mp hmem
  obtain ⟨j, alloc, hjk, hj, halloc, hnot, hhead⟩ := first_accessor hk haccess
  rw [hhead] at hfirst
  cases hfirst
  rcases Nat.lt_or_eq_of_le hjk with hlt | rfl
  · obtain ⟨lbj, hlbj, hidj, hbj⟩ := h.image hj
    obtain ⟨lb, hlb, hid, hb⟩ := h.image hk
    obtain ⟨p, hp, hpj⟩ := hbj.insts.allocates halloc hnot
    obtain ⟨hparams, hresults, hdisjoint⟩ := nodup_append'.mp hssa.defs_nodup
    have hpResult : p ∈ L.blocks.flatMap fun b => opResults b.ops :=
      mem_flatMap.mpr ⟨lbj, mem_of_getElem? hlbj, hpj⟩
    -- The pointer is no parameter, and no other block defines it.
    have hnoParam : ∀ b ∈ L.blocks, p ∉ b.paramIds := fun b hb' hpb =>
      hdisjoint (mem_flatMap.mpr ⟨b, hb', hpb⟩) hpResult
    have hunique : ∀ n b, L.blocks[n]? = some b → p ∈ opResults b.ops → n = j := fun n b hn hpb =>
      flatMap_index_unique hresults hn hlbj hpb hpj
    obtain ⟨ipre, i, ipost, hinsts, hi, -⟩ := first_access haccess
    have hlower := hb.insts
    rw [hinsts] at hlower
    obtain ⟨opsPre, iops, opsPost, hops, -, hlow, -⟩ := hlower.of_inst
    obtain ⟨p', hp', -, a, op, c, rfl, huse⟩ := hlow.pointer hi
    rw [hp] at hp'
    cases hp'
    have hsplit : lb.ops = (opsPre ++ a) ++ op :: (c ++ opsPost) := by
      rw [hops]
      simp
    rcases hssa.dominated lb (mem_of_getElem? hlb) _ op _ hsplit p huse with
      hparam | habove | ⟨other, hother, -, hdef, hdom⟩
    · exact absurd hparam (hnoParam lb (mem_of_getElem? hlb))
    · have hin : p ∈ opResults lb.ops := by
        rw [hsplit, opResults_append]
        exact mem_append_left _ habove
      exact absurd (hunique k lb hlb hin) (Nat.ne_of_gt hlt)
    · obtain ⟨n, hn⟩ := mem_iff_getElem?.mp hother
      have hpOther := hdef.resolve_left (hnoParam other hother)
      obtain rfl := hunique n other hn hpOther
      rw [hlbj] at hn
      cases hn
      rw [hidj, hid] at hdom
      exact (h.dominates_iff hv hj hk).mp hdom
  · rw [hk] at hj
    cases hj
    exact fun entry _ => dominates_self _ _ _

end LoweredAs

/-- A lowered function is in SSA form exactly when, for every stack slot, the block of its first access
in layout order dominates every block that accesses it. -/
theorem ssaWellFormed_iff {f : Function} {L : LoweredFunction} (hv : Verified f)
    (h : lowerFunction f = .ok L) : L.SsaWellFormed ↔ f.SlotsDominated := by
  obtain ⟨m, hm⟩ := lowerFunction_spec hv h
  constructor
  · intro hssa
    exact hm.slotsDominated hv hssa
  · intro hslots
    refine ⟨hm.defs_nodup, ?_⟩
    intro b hb above op below hops d hd
    exact hm.dominated hv hslots hb hops hd

/-- A check that is enough for availability: every value is defined above in its own block or in the
entry block. -/
def Function.locallyScoped (f : Function) (entry : ClBlock) : Bool :=
  f.layout.all fun blk => blk.insts.zipIdx.all fun p => p.1.data.uses.all fun v =>
    decide (v ∈ blk.params) || decide (v ∈ (blk.insts.take p.2).flatMap (·.results)) ||
      (decide (entry.block ≠ blk.block) && decide (v ∈ entry.defs))

theorem available_of_locallyScoped {entry : ClBlock} (hentry : f.layout.head? = some entry)
    (h : f.locallyScoped entry = true) (hblk : blk ∈ f.layout) {above below : List Inst}
    (hinsts : blk.insts = above ++ i :: below) (hv : v ∈ i.data.uses) : f.Available blk above v := by
  have hat : (i, above.length) ∈ blk.insts.zipIdx := by
    rw [mem_zipIdx_iff_getElem?, hinsts]
    simp
  have htake : blk.insts.take above.length = above := by
    rw [hinsts]
    exact take_left' rfl
  have hcheck := all_eq_true.mp (all_eq_true.mp (all_eq_true.mp h blk hblk) _ hat) v hv
  rw [htake] at hcheck
  simp only [Bool.or_eq_true, Bool.and_eq_true, decide_eq_true_eq] at hcheck
  rcases hcheck with (hparam | hresult) | ⟨hne, hdef⟩
  · exact .inl hparam
  · exact .inr (.inl hresult)
  · refine .inr (.inr ⟨entry, mem_of_mem_head? hentry, hne, hdef, ?_⟩)
    intro blk' hblk'
    rw [hentry] at hblk'
    cases hblk'
    exact dominates_entry _ _ _

/-- A function that keeps a local variable in a stack slot and assigns it in both branches of a
conditional. -/
def branchAssign : Function where
  name := .testcase "branch_assign"
  signature := ⟨[⟨.scalar .i32, .normal⟩], [⟨.scalar .i32, .normal⟩], .systemV⟩
  layout := [
    ⟨0, [0], [⟨.brif 0 ⟨1, []⟩ ⟨2, []⟩, []⟩]⟩, ⟨1, [], [⟨.stackStore 0 0 0, []⟩, ⟨.jump ⟨3, []⟩, []⟩]⟩,
    ⟨2, [], [⟨.stackStore 0 0 0, []⟩, ⟨.jump ⟨3, []⟩, []⟩]⟩,
    ⟨3, [], [⟨.stackLoad 0 0, [1]⟩, ⟨.multiAryReturn [1], []⟩]⟩]
  valueType _ := .scalar .i32
  stackSlotSize _ := 4

/-- The allocation stands in the first branch, and the second branch stores through it. -/
def branchAssignLowered : LoweredFunction where
  name := "branch_assign"
  signature := ⟨[.i32], [.i32]⟩
  blocks := [
    ⟨0, [(0, .i32)], [.condBr 0 1 [] 2 []]⟩, ⟨1, [], [.stackAlloc .i32 4 1, .store .i32 0 1 0, .br 3 []]⟩,
    ⟨2, [], [.store .i32 0 1 0, .br 3 []]⟩, ⟨3, [], [.load .i32 1 0 2, .return [2]]⟩]
  entry := 0

theorem lowerFunction_branchAssign : lowerFunction branchAssign = .ok branchAssignLowered := by
  rfl

theorem verified_branchAssign : Verified branchAssign where
  blocks_nodup := by decide
  defs_nodup := by decide
  terminated := by
    intro blk hblk
    simp only [branchAssign, mem_cons, not_mem_nil, or_false] at hblk
    rcases hblk with rfl | rfl | rfl | rfl
    · exact ⟨[], _, rfl, rfl, by decide⟩
    · exact ⟨[_], _, rfl, rfl, by decide⟩
    · exact ⟨[_], _, rfl, rfl, by decide⟩
    · exact ⟨[_], _, rfl, rfl, by decide⟩
  entry_params := by
    intro blk hblk
    cases hblk
    rfl
  typed := by
    have hcall : ∀ n : Nat, n < 3 → branchAssign.CallTyped ⟨n + 1, []⟩ := by
      intro n hn
      interval_cases n
      · exact ⟨_, mem_of_getElem? (i := 1) rfl, rfl, rfl⟩
      · exact ⟨_, mem_of_getElem? (i := 2) rfl, rfl, rfl⟩
      · exact ⟨_, mem_of_getElem? (i := 3) rfl, rfl, rfl⟩
    intro i hi
    simp only [Function.insts, branchAssign, flatMap_cons, flatMap_nil, cons_append,
      nil_append, mem_cons, not_mem_nil, or_false] at hi
    rcases hi with rfl | rfl | rfl | rfl | rfl | rfl | rfl
    · exact ⟨rfl, rfl, hcall 0 (by decide), hcall 1 (by decide)⟩
    · rfl
    · exact ⟨rfl, hcall 2 (by decide)⟩
    · rfl
    · exact ⟨rfl, hcall 2 (by decide)⟩
    · exact ⟨1, rfl⟩
    · exact ⟨rfl, rfl⟩
  available blk hblk above i below hinsts v hv _ :=
    available_of_locallyScoped rfl (by decide) hblk hinsts hv

/-- The store of the second branch reads a pointer that only the first branch defines. -/
theorem branchAssign_not_ssa : Verified branchAssign ∧
    lowerFunction branchAssign = .ok branchAssignLowered ∧ ¬ branchAssignLowered.SsaWellFormed := by
  refine ⟨verified_branchAssign, lowerFunction_branchAssign, ?_⟩
  intro hssa
  have hdom := hssa.dominated _ (mem_of_getElem? (i := 2) rfl) [] _ _ rfl 1 (by decide)
  rcases hdom with hparam | habove | ⟨other, hother, -, hdef, hdom⟩
  · cases hparam
  · cases habove
  · have hfirst : other.id = 1 := by
      clear hdom
      revert other
      decide
    -- The path that takes the second branch avoids the first.
    have hpath : Lib.Path branchAssignLowered.Edge 0 2 [0, 2] :=
      .step .start ⟨_, mem_of_getElem? (i := 0) rfl, rfl, _, mem_cons_self, by decide⟩
    rw [hfirst] at hdom
    exact absurd (hdom _ hpath) (by decide)

theorem branchAssign_ssa_iff : Verified branchAssign ∧
    lowerFunction branchAssign = .ok branchAssignLowered ∧
    (branchAssignLowered.SsaWellFormed ↔ branchAssign.SlotsDominated) :=
  ⟨verified_branchAssign, lowerFunction_branchAssign,
    ssaWellFormed_iff verified_branchAssign lowerFunction_branchAssign⟩

end TensorWasm.Clif
