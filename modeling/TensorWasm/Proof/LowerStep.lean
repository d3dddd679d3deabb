import TensorWasm.Clif.Driver
import TensorWasm.Lib.Numbering
import TensorWasm.Lib.Outcome

/-!
# What one instruction lowers to

`InstLowers` says, for an instruction that is not on the reject-list, which operations it becomes under
given maps of values, blocks and stack slots. `dispatch_stepped` reads it off the driver: whichever
family takes the instruction, the maps only grow, the ids are fresh, and the operations are those of
`InstLowers`. Everything later about the lowering is proved from this relation, not from the families.
-/

namespace TensorWasm.Clif

open Lib List
open Option (bind_eq_some_iff some_ne_none)
open InstData (branchDestination uses)

/-- The stack slots a list of instructions accesses, in order. -/
def touched (insts : List Inst) : List StackSlot := insts.filterMap fun i => i.data.slot?

/-- The maps a lowering ends with. -/
structure Maps where
  value : Value → Option LoweredValueId
  block : Block → Option LoweredBlockId
  slot : StackSlot → Option LoweredValueId

/-- Values and stack slots draw from one counter. -/
def Maps.ids (m : Maps) : Value ⊕ StackSlot → Option LoweredValueId := Sum.elim m.value m.slot

def LoweringBuilder.maps (b : LoweringBuilder) : Maps := ⟨b.valueMap, b.blockMap, b.stackSlotMap⟩

/-- The integer operations that stay off the reject-list. -/
def wrappingKind : BinaryOpcode → Option ArithKind
  | .iadd => some .addI
  | .isub => some .subI
  | .imul => some .mulI
  | _ => none

def minOpcode (signed : Bool) : BinaryOpcode := if signed then .smin else .umin

def maxOpcode (signed : Bool) : BinaryOpcode := if signed then .smax else .umax

def truthOpcode (all : Bool) : UnaryOpcode := if all then .vallTrue else .vanyTrue

def truthOp (all : Bool) (src result : LoweredValueId) : LoweredOp :=
  if all then .vAllTrue src result else .vAnyTrue src result

/-- The conversions between integer widths. -/
def resizeKind : UnaryOpcode → Option ConvKind
  | .ireduce => some .truncI
  | .uextend => some .extendU
  | .sextend => some .extendS
  | _ => none

/-- The allocation of a slot stands with the first access in layout order. -/
def allocaOps (f : Function) (before : List Inst) (slot : StackSlot) (ty : LoweredType)
    (p : LoweredValueId) : List LoweredOp :=
  if slot ∈ touched before then [] else [.stackAlloc ty (f.stackSlotSize slot) p]

/-- The `k`-th case of a switch goes to the `k`-th destination of the table. -/
def CasesLower (m : Maps) (table : List BlockCall) (cases : List (Nat × LoweredBlockId)) : Prop :=
  cases.length = table.length ∧ ∀ k call, table[k]? = some call →
    call.args = [] ∧ ∃ t, m.block call.block = some t ∧ cases[k]? = some (k % 2 ^ 32, t)

/-- The operations of an instruction, where `before` are the instructions earlier in layout order. -/
inductive InstLowers (f : Function) (m : Maps) (before : List Inst) : Inst → List LoweredOp → Prop
  | arith {op : BinaryOpcode} {kind : ArithKind} {x y d : Value} {ty : LoweredType}
      {l r id : LoweredValueId} (hkind : wrappingKind op = some kind)
      (hty : craneliftIntTypeToLowered (f.valueType d) = some ty) (hx : m.value x = some l)
      (hy : m.value y = some r) (hd : m.value d = some id) :
      InstLowers f m before ⟨.binary op x y, [d]⟩ [.arith kind ty l r id]
  | vMin {signed : Bool} {x y d : Value} {laneTy : LoweredType} {l r id : LoweredValueId}
      (hlane : vectorLaneType (f.valueType d) = some laneTy) (hx : m.value x = some l)
      (hy : m.value y = some r) (hd : m.value d = some id) :
      InstLowers f m before ⟨.binary (minOpcode signed) x y, [d]⟩ [.vMin laneTy signed l r id]
  | vMax {signed : Bool} {x y d : Value} {laneTy : LoweredType} {l r id : LoweredValueId}
      (hlane : vectorLaneType (f.valueType d) = some laneTy) (hx : m.value x = some l)
      (hy : m.value y = some r) (hd : m.value d = some id) :
      InstLowers f m before ⟨.binary (maxOpcode signed) x y, [d]⟩ [.vMax laneTy signed l r id]
  | vSplat {x d : Value} {laneTy : LoweredType} {s id : LoweredValueId}
      (hlane : vectorLaneType (f.valueType d) = some laneTy) (hx : m.value x = some s)
      (hd : m.value d = some id) :
      InstLowers f m before ⟨.unary .splat x, [d]⟩ [.vSplat laneTy s id]
  | vTruth {all : Bool} {x d : Value} {s id : LoweredValueId}
      (hvec : (f.valueType x).isVector = true) (hx : m.value x = some s)
      (hd : m.value d = some id) :
      InstLowers f m before ⟨.unary (truthOpcode all) x, [d]⟩ [truthOp all s id]
  | vSelect {c x y d : Value} {laneTy : LoweredType} {k l r id : LoweredValueId}
      (hlane : vectorLaneType (f.valueType d) = some laneTy) (hc : m.value c = some k)
      (hx : m.value x = some l) (hy : m.value y = some r) (hd : m.value d = some id) :
      InstLowers f m before ⟨.ternary .bitselect c x y, [d]⟩ [.vSelect laneTy k l r id]
  | select {c x y d : Value} {ty : LoweredType} {k l r id : LoweredValueId}
      (hty : scalarTypeToLowered (f.valueType d) = some ty) (hc : m.value c = some k)
      (hx : m.value x = some l) (hy : m.value y = some r) (hd : m.value d = some id) :
      InstLowers f m before ⟨.ternary .select c x y, [d]⟩ [.select ty k l r id]
  | bitcast {flags : MemFlags} {x d : Value} {fromTy toTy : LoweredType} {s id : LoweredValueId}
      (hfrom : scalarTypeToLowered (f.valueType x) = some fromTy)
      (hto : scalarTypeToLowered (f.valueType d) = some toTy) (hx : m.value x = some s)
      (hd : m.value d = some id) :
      InstLowers f m before ⟨.bitcast flags x, [d]⟩ [.conv .bitcast fromTy toTy s id]
  | resize {op : UnaryOpcode} {kind : ConvKind} {x d : Value} {fromTy toTy : LoweredType}
      {s id : LoweredValueId} (hkind : resizeKind op = some kind)
      (hfrom : scalarTypeToLowered (f.valueType x) = some fromTy)
      (hto : scalarTypeToLowered (f.valueType d) = some toTy)
      (hint : fromTy.isInt = true ∧ toTy.isInt = true) (hx : m.value x = some s)
      (hd : m.value d = some id) :
      InstLowers f m before ⟨.unary op x, [d]⟩ [.conv kind fromTy toTy s id]
  | load {flags : MemFlags} {x d : Value} {offset : Int} {ty : LoweredType}
      {base id : LoweredValueId} (hty : scalarTypeToLowered (f.valueType d) = some ty)
      (hx : m.value x = some base) (hd : m.value d = some id) :
      InstLowers f m before ⟨.load flags x offset, [d]⟩ [.load ty base offset id]
  | store {flags : MemFlags} {v x : Value} {offset : Int} {ty : LoweredType}
      {value base : LoweredValueId} (hty : scalarTypeToLowered (f.valueType v) = some ty)
      (hv : m.value v = some value) (hx : m.value x = some base) :
      InstLowers f m before ⟨.store flags v x offset, []⟩ [.store ty value base offset]
  | stackLoad {slot : StackSlot} {offset : Int} {d : Value} {ty : LoweredType}
      {p id : LoweredValueId} (hty : scalarTypeToLowered (f.valueType d) = some ty)
      (hslot : m.slot slot = some p) (hd : m.value d = some id) :
      InstLowers f m before ⟨.stackLoad slot offset, [d]⟩
        (allocaOps f before slot ty p ++ [.load ty p offset id])
  | stackStore {v : Value} {slot : StackSlot} {offset : Int} {ty : LoweredType}
      {value p : LoweredValueId} (hty : scalarTypeToLowered (f.valueType v) = some ty)
      (hv : m.value v = some value) (hslot : m.slot slot = some p) :
      InstLowers f m before ⟨.stackStore v slot offset, []⟩
        (allocaOps f before slot ty p ++ [.store ty value p offset])
  | jump {call : BlockCall} {target : LoweredBlockId} {args : List LoweredValueId}
      (htarget : m.block call.block = some target)
      (hargs : List.Forall₂ (fun v d => m.value v = some d) call.args args) :
      InstLowers f m before ⟨.jump call, []⟩ [.br target args]
  | brif {c : Value} {thenCall elseCall : BlockCall} {cond : LoweredValueId}
      {thenTarget elseTarget : LoweredBlockId} {thenArgs elseArgs : List LoweredValueId}
      (hc : m.value c = some cond) (hthen : m.block thenCall.block = some thenTarget)
      (helse : m.block elseCall.block = some elseTarget)
      (hthenArgs : List.Forall₂ (fun v d => m.value v = some d) thenCall.args thenArgs)
      (helseArgs : List.Forall₂ (fun v d => m.value v = some d) elseCall.args elseArgs) :
      InstLowers f m before ⟨.brif c thenCall elseCall, []⟩
        [.condBr cond thenTarget thenArgs elseTarget elseArgs]
  | brTable {x : Value} {default : BlockCall} {table : List BlockCall} {value : LoweredValueId}
      {target : LoweredBlockId} {cases : List (Nat × LoweredBlockId)}
      (hx : m.value x = some value) (hdefault : m.block default.block = some target)
      (hargs : default.args = []) (hcases : CasesLower m table cases) :
      InstLowers f m before ⟨.brTable x default table, []⟩ [.switch value target cases]
  | ret {args : List Value} {values : List LoweredValueId}
      (hargs : List.Forall₂ (fun v d => m.value v = some d) args values) :
      InstLowers f m before ⟨.multiAryReturn args, []⟩ [.return values]

/-! ## The builder -/

/-- Only the counter of values has moved on. -/
def Skips (b b' : LoweringBuilder) : Prop :=
  ∃ n, b.nextValueId ≤ n ∧ b' = { b with nextValueId := n }

instance : Std.Refl Skips := ⟨fun b => ⟨b.nextValueId, Nat.le_refl _, rfl⟩⟩

instance : IsTrans LoweringBuilder Skips where
  trans := by
    rintro a b c ⟨n, hn, rfl⟩ ⟨k, hk, rfl⟩
    exact ⟨k, Nat.le_trans hn hk, rfl⟩

/-- The next id is taken for the value `d`. -/
def LoweringBuilder.takeValue (b : LoweringBuilder) (d : Value) : LoweringBuilder :=
  { b.bindValue d b.nextValueId with nextValueId := b.nextValueId + 1 }

theorem checkedSucc_eq_some {n k : Nat} (h : checkedSucc n = some k) : k = n + 1 := by
  unfold checkedSucc at h
  split at h
  · exact (Option.some.inj h).symm
  · cases h

variable {b b' : LoweringBuilder}

/-- A fresh id at the head of a computation that succeeds. -/
theorem freshId_bind {α : Type} {g : LoweredValueId → Attempt LoweringBuilder α} {r : α}
    (h : (freshId >>= g) b = (some r, b')) :
    g b.nextValueId { b with nextValueId := b.nextValueId + 1 } = (some r, b') := by
  obtain ⟨id, b₁, hid, h⟩ := Attempt.bind_eq_some.mp h
  unfold freshId at hid
  cases hn : checkedSucc b.nextValueId with
  | none =>
    rw [hn] at hid
    cases hid
  | some next =>
    rw [hn] at hid
    obtain rfl := checkedSucc_eq_some hn
    cases hid
    exact h

theorem freshId_moves : Attempt.Moves Skips freshId := by
  intro b
  unfold freshId
  cases hn : checkedSucc b.nextValueId with
  | none => exact Std.Refl.refl b
  | some next =>
    obtain rfl := checkedSucc_eq_some hn
    exact ⟨b.nextValueId + 1, Nat.le_succ _, rfl⟩

/-- A lookup at the head of a computation that succeeds. -/
theorem lookupValue_bind {α : Type} {v : Value} {g : LoweredValueId → Attempt LoweringBuilder α} {r : α}
    (h : (lookupValue v >>= g) b = (some r, b')) : ∃ id, b.valueMap v = some id ∧ g id b = (some r, b') := by
  obtain ⟨id, b₁, hid, h⟩ := Attempt.bind_eq_some.mp h
  obtain ⟨hv, rfl⟩ := Prod.mk.inj hid
  exact ⟨id, hv, h⟩

theorem lookupValue_moves (v : Value) : Attempt.Moves Skips (lookupValue v) :=
  fun b => Std.Refl.refl b

variable {results : List Value} {d : Value}

theorem singleResult_eq_some : singleResult results = some d ↔ results = [d] := by
  unfold singleResult
  split <;> simp_all

/-! ## The families -/

open Attempt

theorem lowerArithInst_givesUp (f : Function) (i : Inst) : GivesUp Skips (lowerArithInst f i) := by
  refine .bind (moves_ofOption _) fun kind => ?_
  refine .bind (moves_ofOption _) fun args => ?_
  refine .bind (moves_ofOption _) fun resultValue => ?_
  refine .bind (moves_ofOption _) fun ty => ?_
  refine .bind (lookupValue_moves _) fun lhs => ?_
  refine .bind (lookupValue_moves _) fun rhs => ?_
  refine .bind freshId_moves fun result => ?_
  -- The binding and the return never give up.
  intro b hnone
  cases hnone

section operands

variable {P : Value → Prop} {x y z : Value}

theorem forall_pair (hx : P x) (hy : P y) : ∀ v ∈ [x, y], P v :=
  forall_mem_cons.mpr ⟨hx, forall_mem_singleton.mpr hy⟩

theorem forall_triple (hx : P x) (hy : P y) (hz : P z) : ∀ v ∈ [x, y, z], P v :=
  forall_mem_cons.mpr ⟨hx, forall_pair hy hz⟩

end operands

/-- An instruction without destinations reads its operands only. -/
theorem forall_uses {P : Value → Prop} {data : InstData} (hdest : data.branchDestination = [])
    (h : ∀ v ∈ data.args, P v) : ∀ v ∈ data.uses, P v := by
  intro v hv
  unfold uses at hv
  rw [hdest, flatMap_nil, append_nil] at hv
  exact h v hv

/-- The instruction has one result and becomes one operation, whose result is the next id. The maps it
is read under need only extend the builder's. -/
structure TakesOne (f : Function) (i : Inst) (b : LoweringBuilder) (d : Value) (op : LoweredOp) : Prop where
  results : i.results = [d]
  result : op.result = some b.nextValueId
  slot : i.data.slot? = none
  uses : ∀ v ∈ i.data.uses, ∃ id, b.valueMap v = some id
  lowers : ∀ m before, Extends b.valueMap m.value → m.value d = some b.nextValueId → InstLowers f m before i [op]

variable {f : Function} {op : LoweredOp} {i : Inst}

theorem lowerArithInst_some (hclass : classifyOpcode i.data.opcode = none)
    (h : lowerArithInst f i b = (some op, b')) : ∃ d, TakesOne f i b d op ∧ b' = b.takeValue d := by
  obtain ⟨kind, hkind, h⟩ := ofOption_bind h
  obtain ⟨args, hargs, h⟩ := ofOption_bind h
  obtain ⟨d, hd, h⟩ := ofOption_bind h
  obtain ⟨ty, hty, h⟩ := ofOption_bind h
  obtain ⟨l, hl, h⟩ := lookupValue_bind h
  obtain ⟨r, hr, h⟩ := lookupValue_bind h
  have h := freshId_bind h
  obtain ⟨_, b₂, hbind, h⟩ := bind_eq_some.mp h
  cases hbind
  obtain ⟨rfl, rfl⟩ := pure_eq_some.mp h
  refine ⟨d, ?_, rfl⟩
  obtain ⟨data, results⟩ := i
  obtain rfl := singleResult_eq_some.mp hd
  -- Only the opcodes of the two-operand format have an arithmetic kind.
  cases data with
  | binary bop x y =>
    cases hargs
    have hwrap : wrappingKind bop = some kind := by
      cases bop <;> first
        | exact hkind
        | exact absurd hclass (some_ne_none _)
    refine ⟨rfl, rfl, rfl, ?_, ?_⟩
    · exact forall_pair ⟨l, hl⟩ ⟨r, hr⟩
    · intro m before hext hid
      exact .arith hwrap hty (hext _ _ hl) (hext _ _ hr) hid
  | _ => cases hkind

theorem lowerVectorTruth_moves (f : Function) (arg : Value) (op : LoweredValueId → LoweredValueId → LoweredOp) :
    Moves Skips (lowerVectorTruth f arg op) := by
  unfold lowerVectorTruth
  split
  · refine .bind (lookupValue_moves _) fun src => ?_
    exact .bind freshId_moves fun result => moves_pure _
  · exact moves_ofOption _

/-- The vector family advances the counter at most. -/
theorem lowerVectorInst_moves (f : Function) (i : Inst) : Moves Skips (lowerVectorInst f i) := by
  unfold lowerVectorInst
  split
  · refine .bind (moves_ofOption _) fun resultValue => ?_
    refine .bind (moves_ofOption _) fun laneTy => ?_
    refine .bind (lookupValue_moves _) fun lhs => ?_
    refine .bind (lookupValue_moves _) fun rhs => ?_
    exact .bind freshId_moves fun result => moves_ofOption _
  · refine .bind (moves_ofOption _) fun resultValue => ?_
    refine .bind (moves_ofOption _) fun laneTy => ?_
    refine .bind (lookupValue_moves _) fun src => ?_
    exact .bind freshId_moves fun result => moves_pure _
  · exact lowerVectorTruth_moves f _ _
  · exact lowerVectorTruth_moves f _ _
  · refine .bind (moves_ofOption _) fun resultValue => ?_
    refine .bind (moves_ofOption _) fun laneTy => ?_
    refine .bind (lookupValue_moves _) fun cond => ?_
    refine .bind (lookupValue_moves _) fun thenV => ?_
    refine .bind (lookupValue_moves _) fun elseV => ?_
    exact .bind freshId_moves fun result => moves_pure _
  · exact moves_ofOption _

variable {id : LoweredValueId}

/-- The vector operation of a minimum or maximum that is not on the reject-list. -/
theorem minMaxOp_some {op : BinaryOpcode} {laneTy : LoweredType} {l r : LoweredValueId} {lop : LoweredOp}
    (hclass : classifyOpcode (.binary op) = none) (h : minMaxOp op laneTy l r id = some lop) :
    ∃ signed, (op = minOpcode signed ∧ lop = .vMin laneTy signed l r id) ∨
      (op = maxOpcode signed ∧ lop = .vMax laneTy signed l r id) := by
  cases op with
  | smin => exact ⟨true, .inl ⟨rfl, (Option.some.inj h).symm⟩⟩
  | umin => exact ⟨false, .inl ⟨rfl, (Option.some.inj h).symm⟩⟩
  | smax => exact ⟨true, .inr ⟨rfl, (Option.some.inj h).symm⟩⟩
  | umax => exact ⟨false, .inr ⟨rfl, (Option.some.inj h).symm⟩⟩
  | fmin | fmax => exact absurd hclass (some_ne_none _)
  | _ => exact absurd h.symm (some_ne_none _)

theorem lowerVectorTruth_some (all : Bool) {x d : Value} (h : lowerVectorTruth f x (truthOp all) b = (some op, b')) :
    TakesOne f ⟨.unary (truthOpcode all) x, [d]⟩ b d op ∧ b' = { b with nextValueId := b.nextValueId + 1 } := by
  unfold lowerVectorTruth at h
  split at h
  · rename_i hvec
    obtain ⟨s, hs, h⟩ := lookupValue_bind h
    have h := freshId_bind h
    obtain ⟨rfl, rfl⟩ := pure_eq_some.mp h
    refine ⟨⟨rfl, ?_, rfl, ?_, ?_⟩, rfl⟩
    · cases all <;> rfl
    · exact forall_mem_singleton.mpr ⟨s, hs⟩
    · intro m before hext hid
      exact .vTruth hvec (hext _ _ hs) hid
  · cases h

theorem lowerVectorInst_some (hclass : classifyOpcode i.data.opcode = none) (htyped : f.InstTyped i)
    (h : lowerVectorInst f i b = (some op, b')) :
    ∃ d, TakesOne f i b d op ∧ b' = { b with nextValueId := b.nextValueId + 1 } := by
  obtain ⟨data, results⟩ := i
  unfold lowerVectorInst at h
  dsimp only at h
  split at h
  · rename_i bop x y
    obtain ⟨d, hd, h⟩ := ofOption_bind h
    obtain ⟨laneTy, hlane, h⟩ := ofOption_bind h
    obtain ⟨l, hl, h⟩ := lookupValue_bind h
    obtain ⟨r, hr, h⟩ := lookupValue_bind h
    have h := freshId_bind h
    obtain ⟨hop, rfl⟩ := Prod.mk.inj h
    have huses : ∀ v ∈ (InstData.binary bop x y).uses, ∃ id, b.valueMap v = some id :=
      forall_pair ⟨l, hl⟩ ⟨r, hr⟩
    obtain ⟨signed, hcase⟩ := minMaxOp_some hclass hop
    refine ⟨d, ?_, rfl⟩
    rcases hcase with ⟨rfl, rfl⟩ | ⟨rfl, rfl⟩
    · obtain ⟨d', rfl, -⟩ := htyped (by cases signed <;> rfl)
      cases hd
      exact ⟨rfl, rfl, rfl, huses, fun m before hext hid =>
        .vMin hlane (hext _ _ hl) (hext _ _ hr) hid⟩
    · obtain ⟨d', rfl, -⟩ := htyped (by cases signed <;> rfl)
      cases hd
      exact ⟨rfl, rfl, rfl, huses, fun m before hext hid =>
        .vMax hlane (hext _ _ hl) (hext _ _ hr) hid⟩
  · obtain ⟨d, hd, h⟩ := ofOption_bind h
    obtain ⟨laneTy, hlane, h⟩ := ofOption_bind h
    obtain ⟨s, hs, h⟩ := lookupValue_bind h
    have h := freshId_bind h
    obtain ⟨rfl, rfl⟩ := pure_eq_some.mp h
    obtain ⟨d', rfl, -⟩ := htyped
    cases hd
    exact ⟨d, ⟨rfl, rfl, rfl, forall_mem_singleton.mpr ⟨s, hs⟩,
      fun m before hext hid => .vSplat hlane (hext _ _ hs) hid⟩, rfl⟩
  · obtain ⟨d, rfl, -⟩ := htyped
    exact ⟨d, lowerVectorTruth_some true h⟩
  · obtain ⟨d, rfl, -⟩ := htyped
    exact ⟨d, lowerVectorTruth_some false h⟩
  · obtain ⟨d, hd, h⟩ := ofOption_bind h
    obtain ⟨laneTy, hlane, h⟩ := ofOption_bind h
    obtain ⟨k, hk, h⟩ := lookupValue_bind h
    obtain ⟨l, hl, h⟩ := lookupValue_bind h
    obtain ⟨r, hr, h⟩ := lookupValue_bind h
    have h := freshId_bind h
    obtain ⟨rfl, rfl⟩ := pure_eq_some.mp h
    obtain ⟨d', rfl, -⟩ := htyped
    cases hd
    exact ⟨d, ⟨rfl, rfl, rfl, forall_triple ⟨k, hk⟩ ⟨l, hl⟩ ⟨r, hr⟩,
      fun m before hext hid => .vSelect hlane (hext _ _ hk) (hext _ _ hl) (hext _ _ hr) hid⟩, rfl⟩
  · cases h

theorem lowerConversion_some {data : InstData} {kind : ConvKind} {x : Value}
    (h : lowerConversion f ⟨data, results⟩ kind x b = (some op, b')) :
    ∃ d fromTy toTy s, results = [d] ∧ scalarTypeToLowered (f.valueType x) = some fromTy ∧
      scalarTypeToLowered (f.valueType d) = some toTy ∧ convTypesOk kind fromTy toTy = true ∧
      b.valueMap x = some s ∧ op = .conv kind fromTy toTy s b.nextValueId ∧
      b' = { b with nextValueId := b.nextValueId + 1 } := by
  obtain ⟨d, hd, h⟩ := ofOption_bind h
  obtain ⟨fromTy, hfrom, h⟩ := ofOption_bind h
  obtain ⟨toTy, hto, h⟩ := ofOption_bind h
  split at h
  · rename_i hok
    obtain ⟨s, hs, h⟩ := lookupValue_bind h
    have h := freshId_bind h
    obtain ⟨rfl, rfl⟩ := pure_eq_some.mp h
    exact ⟨d, fromTy, toTy, s, singleResult_eq_some.mp hd, hfrom, hto, hok, hs, rfl, rfl⟩
  · cases h

/-- The conversions between widths, whose types are checked to be integers. -/
theorem lowerResize_some {bop : UnaryOpcode} {kind : ConvKind} {x : Value} (hkind : resizeKind bop = some kind)
    (h : lowerConversion f ⟨.unary bop x, results⟩ kind x b = (some op, b')) :
    ∃ d, TakesOne f ⟨.unary bop x, results⟩ b d op ∧ b' = { b with nextValueId := b.nextValueId + 1 } := by
  obtain ⟨d, fromTy, toTy, s, rfl, hfrom, hto, hok, hs, rfl, rfl⟩ := lowerConversion_some h
  have hint : fromTy.isInt = true ∧ toTy.isInt = true := by
    cases kind with
    | bitcast => cases bop <;> cases hkind
    | _ => exact Bool.and_eq_true_iff.mp hok
  exact ⟨d, ⟨rfl, rfl, rfl, forall_mem_singleton.mpr ⟨s, hs⟩,
    fun m before hext hid => .resize hkind hfrom hto hint (hext _ _ hs) hid⟩, rfl⟩

theorem lowerConvInst_some (h : lowerConvInst f i b = (some op, b')) :
    ∃ d, TakesOne f i b d op ∧ b' = { b with nextValueId := b.nextValueId + 1 } := by
  obtain ⟨data, results⟩ := i
  unfold lowerConvInst at h
  dsimp only at h
  split at h
  · obtain ⟨d, hd, h⟩ := ofOption_bind h
    obtain ⟨ty, hty, h⟩ := ofOption_bind h
    obtain ⟨k, hk, h⟩ := lookupValue_bind h
    obtain ⟨l, hl, h⟩ := lookupValue_bind h
    obtain ⟨r, hr, h⟩ := lookupValue_bind h
    have h := freshId_bind h
    obtain ⟨rfl, rfl⟩ := pure_eq_some.mp h
    obtain rfl := singleResult_eq_some.mp hd
    exact ⟨d, ⟨rfl, rfl, rfl, forall_triple ⟨k, hk⟩ ⟨l, hl⟩ ⟨r, hr⟩,
      fun m before hext hid => .select hty (hext _ _ hk) (hext _ _ hl) (hext _ _ hr) hid⟩, rfl⟩
  · obtain ⟨d, fromTy, toTy, s, rfl, hfrom, hto, -, hs, rfl, rfl⟩ := lowerConversion_some h
    exact ⟨d, ⟨rfl, rfl, rfl, forall_mem_singleton.mpr ⟨s, hs⟩,
      fun m before hext hid => .bitcast hfrom hto (hext _ _ hs) hid⟩, rfl⟩
  · exact lowerResize_some rfl h
  · exact lowerResize_some rfl h
  · exact lowerResize_some rfl h
  · cases h

/-- The float family takes no instruction that is off the reject-list. -/
theorem lowerFloatInst_none (b : LoweringBuilder) (hclass : classifyOpcode i.data.opcode = none) :
    lowerFloatInst f i b = (none, b) := by
  have hfloat : isFloatFamily i.data = false := by
    cases hdata : i.data with
    | binary op x y | unary op x | ternary op x y z =>
      rw [hdata] at hclass
      cases op <;> first | rfl | exact absurd hclass (some_ne_none _)
    | _ => rfl
  unfold lowerFloatInst
  rw [hfloat]
  rfl

/-! ### Control flow -/

/-- What the control-flow family makes of an instruction: one operation without a result. -/
structure TakesNone (f : Function) (i : Inst) (b : LoweringBuilder) (op : LoweredOp) : Prop where
  results : i.results = []
  result : op.result = none
  slot : i.data.slot? = none
  uses : ∀ v ∈ i.data.uses, ∃ id, b.valueMap v = some id
  lowers : ∀ m before, Extends b.valueMap m.value → Extends b.blockMap m.block → InstLowers f m before i [op]

/-- Values that are all mapped. -/
def MapsTo (b : LoweringBuilder) (vs : List Value) (ids : List LoweredValueId) : Prop :=
  List.Forall₂ (fun v id => b.valueMap v = some id) vs ids

variable {ids : List LoweredValueId} {vs : List Value}

theorem mapBlockCallArgs_some (h : mapBlockCallArgs b vs = some ids) : MapsTo b vs ids := by
  unfold mapBlockCallArgs at h
  induction vs generalizing ids with
  | nil =>
    cases h
    exact .nil
  | cons v vs ih =>
    rw [mapM_cons] at h
    obtain ⟨id, hid, h⟩ := bind_eq_some_iff.mp h
    obtain ⟨rest, hrest, h⟩ := bind_eq_some_iff.mp h
    cases h
    exact .cons hid (ih hrest)

theorem MapsTo.mono {m : Maps} (h : MapsTo b vs ids)
    (hext : Extends b.valueMap m.value) : List.Forall₂ (fun v d => m.value v = some d) vs ids :=
  h.imp fun v d hd => hext v d hd

theorem MapsTo.bound (h : MapsTo b vs ids) : ∀ v ∈ vs, ∃ id, b.valueMap v = some id := by
  induction h with
  | nil => exact fun v hv => nomatch hv
  | cons hid _ ih => exact forall_mem_cons.mpr ⟨⟨_, hid⟩, ih⟩

theorem switchCases_some {table : List BlockCall} {idx : Nat}
    {cases : List (Nat × LoweredBlockId)} (h : switchCases b idx table = some cases) :
    cases.length = table.length ∧ ∀ k call, table[k]? = some call →
      call.args = [] ∧ ∃ t, b.blockMap call.block = some t ∧ cases[k]? = some ((idx + k) % 2 ^ 32, t) := by
  induction table generalizing idx cases with
  | nil =>
    cases h
    exact ⟨rfl, fun k call hk => by cases hk⟩
  | cons call table ih =>
    unfold switchCases at h
    split at h
    · rename_i hempty
      obtain ⟨t, ht, h⟩ := bind_eq_some_iff.mp h
      obtain ⟨rest, hrest, h⟩ := bind_eq_some_iff.mp h
      cases h
      obtain ⟨hlen, hcases⟩ := ih hrest
      refine ⟨congrArg (· + 1) hlen, ?_⟩
      intro k call' hk
      cases k with
      | zero =>
        cases hk
        exact ⟨isEmpty_iff.mp hempty, t, ht, rfl⟩
      | succ k =>
        have hk := hcases k call' hk
        rwa [Nat.add_assoc, Nat.add_comm 1 k] at hk
    · cases h

theorem lowerCfInst_some (htyped : f.InstTyped i) (h : lowerCfInst i b = some op) : TakesNone f i b op := by
  obtain ⟨data, results⟩ := i
  unfold lowerCfInst at h
  dsimp only at h
  split at h
  · obtain ⟨t, ht, h⟩ := bind_eq_some_iff.mp h
    obtain ⟨args, hargs, h⟩ := bind_eq_some_iff.mp h
    cases h
    have hargs := mapBlockCallArgs_some hargs
    obtain ⟨rfl, -⟩ := htyped
    refine ⟨rfl, rfl, rfl, ?_, fun m before hv hb => .jump (hb _ _ ht) (hargs.mono hv)⟩
    simpa [uses, InstData.args, branchDestination] using hargs.bound
  · obtain ⟨c, hc, h⟩ := bind_eq_some_iff.mp h
    obtain ⟨t, ht, h⟩ := bind_eq_some_iff.mp h
    obtain ⟨e, he, h⟩ := bind_eq_some_iff.mp h
    obtain ⟨targs, htargs, h⟩ := bind_eq_some_iff.mp h
    obtain ⟨eargs, heargs, h⟩ := bind_eq_some_iff.mp h
    cases h
    have htargs := mapBlockCallArgs_some htargs
    have heargs := mapBlockCallArgs_some heargs
    obtain ⟨rfl, -⟩ := htyped
    refine ⟨rfl, rfl, rfl, ?_, fun m before hv hb =>
      .brif (hv _ _ hc) (hb _ _ ht) (hb _ _ he) (htargs.mono hv) (heargs.mono hv)⟩
    intro v hv
    simp only [uses, InstData.args, branchDestination, flatMap_cons,
      flatMap_nil, append_nil, mem_append, mem_singleton] at hv
    rcases hv with rfl | hv | hv
    · exact ⟨c, hc⟩
    · exact htargs.bound v hv
    · exact heargs.bound v hv
  · obtain ⟨x, hx, h⟩ := bind_eq_some_iff.mp h
    obtain ⟨t, ht, h⟩ := bind_eq_some_iff.mp h
    obtain ⟨cases', hcases, h⟩ := bind_eq_some_iff.mp h
    split at h
    · rename_i hempty
      cases h
      obtain ⟨hlen, hcases⟩ := switchCases_some hcases
      have hnil := isEmpty_iff.mp hempty
      obtain ⟨rfl, -⟩ := htyped
      refine ⟨rfl, rfl, rfl, ?_, fun m before hv hb => .brTable (hv _ _ hx) (hb _ _ ht) hnil ?_⟩
      · -- No destination carries an argument, so the switched value is the only use.
        intro v hv
        simp only [uses, InstData.args, branchDestination, flatMap_cons,
          hnil, nil_append, mem_append, mem_singleton, mem_flatMap] at hv
        rcases hv with rfl | ⟨call, hcall, hv⟩
        · exact ⟨x, hx⟩
        · obtain ⟨k, hk⟩ := mem_iff_getElem?.mp hcall
          rw [(hcases k call hk).1] at hv
          cases hv
      · refine ⟨hlen, ?_⟩
        intro k call hk
        obtain ⟨hargs, t', ht', hcase⟩ := hcases k call hk
        rw [Nat.zero_add] at hcase
        exact ⟨hargs, t', hb _ _ ht', hcase⟩
    · cases h
  · obtain ⟨values, hvalues, h⟩ := bind_eq_some_iff.mp h
    cases h
    have hvalues := mapBlockCallArgs_some hvalues
    obtain ⟨rfl, -⟩ := htyped
    exact ⟨rfl, rfl, rfl, forall_uses rfl hvalues.bound, fun m before hv hb => .ret (hvalues.mono hv)⟩
  · cases h

/-! ## The walk -/

/-- The builder after the instructions `before`: every parameter, every result and every accessed slot
has its own id. -/
structure Walked (f : Function) (before : List Inst) (b : LoweringBuilder) : Prop where
  values : ∀ v, (∃ d, b.valueMap v = some d) ↔ v ∈ f.params ++ before.flatMap (·.results)
  slots : ∀ s, (∃ d, b.stackSlotMap s = some d) ↔ s ∈ touched before
  numbered : Numbered b.maps.ids b.nextValueId

/-- No id is taken back. -/
structure Grows (b b' : LoweringBuilder) : Prop where
  value : Extends b.valueMap b'.valueMap
  slot : Extends b.stackSlotMap b'.stackSlotMap
  block : b'.blockMap = b.blockMap

theorem Grows.refl (b : LoweringBuilder) : Grows b b := ⟨.refl _, .refl _, rfl⟩

theorem Grows.trans {a c : LoweringBuilder} (hab : Grows a b) (hbc : Grows b c) : Grows a c :=
  ⟨hab.value.trans hbc.value, hab.slot.trans hbc.slot, hbc.block.trans hab.block⟩

/-- One instruction of the walk. -/
structure Stepped (f : Function) (before : List Inst) (b : LoweringBuilder) (i : Inst)
    (ops : List LoweredOp) (b' : LoweringBuilder) : Prop where
  lowers : InstLowers f b'.maps before i ops
  inScope : ∀ v ∈ i.data.uses, v ∈ f.params ++ before.flatMap (·.results)
  walked : Walked f (before ++ [i]) b'
  grows : Grows b b'
  taken : Taken (opResults ops) b.nextValueId b'.nextValueId

variable {before : List Inst}

theorem Walked.skip (h : Walked f before b) (hskip : Skips b b') : Walked f before b' := by
  obtain ⟨n, hn, rfl⟩ := hskip
  exact ⟨h.values, h.slots, h.numbered.mono hn⟩

theorem Skips.grows (h : Skips b b') : Grows b b' := by
  obtain ⟨n, hn, rfl⟩ := h
  exact ⟨.refl _, .refl _, rfl⟩

theorem Skips.le (h : Skips b b') : b.nextValueId ≤ b'.nextValueId := by
  obtain ⟨n, hn, rfl⟩ := h
  exact hn

theorem touched_append_none (h : i.data.slot? = none) : touched (before ++ [i]) = touched before := by
  simp [touched, h]

variable {slot : StackSlot}

theorem touched_append_some (h : i.data.slot? = some slot) : touched (before ++ [i]) = touched before ++ [slot] := by
  simp [touched, h]

theorem results_append (before : List Inst) (i : Inst) :
    (before ++ [i]).flatMap (·.results) = before.flatMap (·.results) ++ i.results := by
  simp

theorem takeValue_values (b : LoweringBuilder) (d v : Value) :
    (∃ id, (b.takeValue d).valueMap v = some id) ↔ v = d ∨ ∃ id, b.valueMap v = some id := by
  by_cases hv : v = d
  · subst hv
    simp [LoweringBuilder.takeValue, LoweringBuilder.bindValue]
  · simp [LoweringBuilder.takeValue, LoweringBuilder.bindValue, hv]

theorem takeValue_ids (b : LoweringBuilder) (d : Value) :
    (b.takeValue d).maps.ids = Function.update b.maps.ids (.inl d) (some b.nextValueId) :=
  (Sum.update_elim_inl ..).symm

theorem takeValue_grows (h : b.valueMap d = none) : Grows b (b.takeValue d) :=
  ⟨extends_update h _, .refl _, rfl⟩

theorem takeValue_self (b : LoweringBuilder) (d : Value) :
    (b.takeValue d).valueMap d = some b.nextValueId := Function.update_self ..

/-- The builder is ready for the results of `i`: it has the values before `i`, and `emitted` has made room for the
slot of `i`, if it has one. -/
structure Prepared (f : Function) (before : List Inst) (b : LoweringBuilder) (i : Inst)
    (emitted : List LoweredOp) (b' : LoweringBuilder) : Prop where
  values : ∀ v, (∃ d, b'.valueMap v = some d) ↔ v ∈ f.params ++ before.flatMap (·.results)
  slots : ∀ s, (∃ d, b'.stackSlotMap s = some d) ↔ s ∈ touched (before ++ [i])
  numbered : Numbered b'.maps.ids b'.nextValueId
  grows : Grows b b'
  taken : Taken (opResults emitted) b.nextValueId b'.nextValueId

variable {emitted : List LoweredOp}

theorem Walked.prepared (hw : Walked f before b) (hskip : Skips b b') (hslot : i.data.slot? = none) :
    Prepared f before b i [] b' where
  values := (hw.skip hskip).values
  slots := by
    rw [touched_append_none hslot]
    exact (hw.skip hskip).slots
  numbered := (hw.skip hskip).numbered
  grows := hskip.grows
  taken := .nil hskip.le

/-- An instruction that takes one id for its result. -/
theorem Prepared.one (h : Prepared f before b i emitted b') (hresults : i.results = [d])
    (hresult : op.result = some b'.nextValueId) (huses : ∀ v ∈ i.data.uses, ∃ id, b'.valueMap v = some id)
    (hnew : ∀ d ∈ i.results, d ∉ f.params ++ before.flatMap (·.results))
    (hlowers : Grows b' (b'.takeValue d) → InstLowers f (b'.takeValue d).maps before i (emitted ++ [op])) :
    Stepped f before b i (emitted ++ [op]) (b'.takeValue d) := by
  have hnone : b'.valueMap d = none := by
    refine Option.eq_none_iff_forall_ne_some.mpr fun id hid => ?_
    exact hnew d (hresults ▸ mem_singleton_self d) ((h.values d).mp ⟨id, hid⟩)
  have hgrows := takeValue_grows hnone
  refine ⟨hlowers hgrows, ?_, ⟨?_, h.slots, ?_⟩, h.grows.trans hgrows, ?_⟩
  · intro v hv
    exact (h.values v).mp (huses v hv)
  · intro v
    rw [takeValue_values, h.values, results_append, hresults]
    simp only [mem_append, mem_singleton]
    tauto
  · rw [takeValue_ids]
    exact h.numbered.bind _
  · have hops : opResults [op] = [b'.nextValueId] := by simp [opResults, hresult]
    rw [opResults_append, hops]
    exact h.taken.append (.single (Nat.le_refl _))

theorem Prepared.none (h : Prepared f before b i emitted b') (hresults : i.results = []) (hresult : op.result = none)
    (huses : ∀ v ∈ i.data.uses, ∃ id, b'.valueMap v = some id)
    (hlowers : InstLowers f b'.maps before i (emitted ++ [op])) : Stepped f before b i (emitted ++ [op]) b' := by
  refine ⟨hlowers, ?_, ⟨?_, h.slots, h.numbered⟩, h.grows, ?_⟩
  · intro v hv
    exact (h.values v).mp (huses v hv)
  · intro v
    rw [results_append, hresults, append_nil]
    exact h.values v
  · have hops : opResults [op] = [] := by simp [opResults, hresult]
    rw [opResults_append, hops]
    exact h.taken.append (.nil (Nat.le_refl _))

variable {b₁ b₂ : LoweringBuilder}

theorem stepped_one (hw : Walked f before b) (hskip : Skips b b₁) (h : TakesOne f i b₁ d op)
    (hnew : ∀ d ∈ i.results, d ∉ f.params ++ before.flatMap (·.results)) :
    Stepped f before b i [op] (b₁.takeValue d) :=
  (hw.prepared hskip h.slot).one h.results h.result h.uses hnew fun hgrows =>
    h.lowers _ before hgrows.value (takeValue_self b₁ d)

theorem stepped_none (hw : Walked f before b) (hskip : Skips b b₁) (h : TakesNone f i b₁ op) :
    Stepped f before b i [op] b₁ :=
  (hw.prepared hskip h.slot).none h.results h.result h.uses (h.lowers _ before (.refl _) (.refl _))

/-! ### Memory -/

theorem lookupMem_ok {v : Value} (h : b.lookupMem v = .ok id) : b.valueMap v = some id := by
  unfold LoweringBuilder.lookupMem at h
  split at h
  · next hv => rw [hv, Except.ok.inj h]
  · cases h

theorem memType_ok {ty : ClType} {lowered : LoweredType} (h : memType ty = .ok lowered) :
    scalarTypeToLowered ty = some lowered := by
  unfold memType at h
  split at h
  · next hty => rw [hty, Except.ok.inj h]
  · cases h

theorem freshMemId_ok (h : b.freshMemId = .ok (id, b')) :
    id = b.nextValueId ∧ b' = { b with nextValueId := b.nextValueId + 1 } := by
  unfold LoweringBuilder.freshMemId at h
  cases hn : checkedSucc b.nextValueId with
  | none =>
    rw [hn] at h
    cases h
  | some next =>
    rw [hn] at h
    obtain rfl := checkedSucc_eq_some hn
    cases h
    exact ⟨rfl, rfl⟩

/-- The slot has its pointer `p`, and `emitted` allocates it if no instruction before did. -/
structure SlotReady (f : Function) (before : List Inst) (b : LoweringBuilder) (slot : StackSlot)
    (ty : LoweredType) (p : LoweredValueId) (emitted : List LoweredOp) (b' : LoweringBuilder) : Prop where
  pointer : b'.stackSlotMap slot = some p
  emits : emitted = allocaOps f before slot ty p
  values : b'.valueMap = b.valueMap
  slots : ∀ s, (∃ d, b'.stackSlotMap s = some d) ↔ s ∈ touched before ++ [slot]
  numbered : Numbered b'.maps.ids b'.nextValueId
  grows : Grows b b'
  taken : Taken (opResults emitted) b.nextValueId b'.nextValueId

theorem ensureStackAlloca_ready {ty : LoweredType} {p : LoweredValueId} (hw : Walked f before b)
    (h : ensureStackAlloca f slot ty b = .ok (p, emitted, b')) : SlotReady f before b slot ty p emitted b' := by
  unfold ensureStackAlloca at h
  cases hslot : b.stackSlotMap slot with
  | some existing =>
    rw [hslot] at h
    cases h
    have htouched := (hw.slots slot).mp ⟨_, hslot⟩
    refine ⟨hslot, ?_, rfl, ?_, hw.numbered, .refl b, .nil (Nat.le_refl _)⟩
    · rw [allocaOps, if_pos htouched]
    · intro s
      rw [hw.slots, mem_append, mem_singleton]
      constructor
      · exact .inl
      · rintro (hs | rfl)
        · exact hs
        · exact htouched
  | none =>
    rw [hslot] at h
    obtain ⟨⟨ptrId, b₁⟩, hfresh, h⟩ := bind_eq_ok.mp h
    obtain ⟨rfl, rfl⟩ := freshMemId_ok hfresh
    cases h
    have htouched : slot ∉ touched before := by
      intro hmem
      obtain ⟨d, hd⟩ := (hw.slots slot).mpr hmem
      rw [hslot] at hd
      cases hd
    refine ⟨Function.update_self .., ?_, rfl, ?_, ?_, ?_, .single (Nat.le_refl _)⟩
    · rw [allocaOps, if_neg htouched]
    · intro s
      rw [mem_append, mem_singleton, ← hw.slots]
      by_cases hs : s = slot
      · subst hs
        simp
      · simp [hs]
    · have hids := hw.numbered.bind (.inr slot)
      rwa [LoweringBuilder.maps, Maps.ids, Sum.update_elim_inr] at hids
    · exact ⟨.refl _, extends_update hslot _, rfl⟩

theorem SlotReady.prepared {ty : LoweredType} {p : LoweredValueId} (h : SlotReady f before b₁ slot ty p emitted b₂)
    (hw : Walked f before b) (hskip : Skips b b₁) (hslot : i.data.slot? = some slot) :
    Prepared f before b i emitted b₂ where
  values := by
    rw [h.values]
    exact (hw.skip hskip).values
  slots := by
    rw [touched_append_some hslot]
    exact h.slots
  numbered := h.numbered
  grows := hskip.grows.trans h.grows
  taken := ⟨h.taken.sorted, fun a ha => hskip.le.trans (h.taken.ge a ha), h.taken.lt, hskip.le.trans h.taken.le⟩

variable {ops : List LoweredOp}

/-- The memory family takes the instruction, or leaves the builder as it is. -/
theorem stepped_memory (hw : Walked f before b) (hskip : Skips b b₁) (htyped : f.InstTyped i)
    (hnew : ∀ d ∈ i.results, d ∉ f.params ++ before.flatMap (·.results))
    {answer : Option (List LoweredOp)} (h : lowerMemoryInst f i b₁ = .ok (answer, b₂)) :
    match answer with
    | none => b₂ = b₁
    | some ops => Stepped f before b i ops (bindMemoryResult i ops b₂) := by
  obtain ⟨data, results⟩ := i
  have hw₁ := hw.skip hskip
  unfold lowerMemoryInst at h
  dsimp only at h
  split at h
  · obtain ⟨base, hbase, h⟩ := bind_eq_ok.mp h
    obtain ⟨d, hd, h⟩ := bind_eq_ok.mp h
    obtain ⟨ty, hty, h⟩ := bind_eq_ok.mp h
    obtain ⟨⟨id, b₃⟩, hid, h⟩ := bind_eq_ok.mp h
    obtain ⟨rfl, rfl⟩ := freshMemId_ok hid
    cases h
    obtain ⟨d', rfl, -⟩ := htyped
    cases hd
    have hbase := lookupMem_ok hbase
    exact stepped_one hw hskip ⟨rfl, rfl, rfl, forall_mem_singleton.mpr ⟨base, hbase⟩,
      fun m before hext hid => .load (memType_ok hty) (hext _ _ hbase) hid⟩ hnew
  · obtain ⟨value, hvalue, h⟩ := bind_eq_ok.mp h
    obtain ⟨base, hbase, h⟩ := bind_eq_ok.mp h
    obtain ⟨ty, hty, h⟩ := bind_eq_ok.mp h
    cases h
    obtain ⟨rfl, -⟩ := htyped
    have hvalue := lookupMem_ok hvalue
    have hbase := lookupMem_ok hbase
    exact stepped_none hw hskip ⟨rfl, rfl, rfl, forall_pair ⟨value, hvalue⟩ ⟨base, hbase⟩,
      fun m before hext _ => .store (memType_ok hty) (hext _ _ hvalue) (hext _ _ hbase)⟩
  · rename_i slot offset
    obtain ⟨d, hd, h⟩ := bind_eq_ok.mp h
    obtain ⟨ty, hty, h⟩ := bind_eq_ok.mp h
    obtain ⟨⟨p, emitted, b₃⟩, hp, h⟩ := bind_eq_ok.mp h
    obtain ⟨⟨id, b₄⟩, hid, h⟩ := bind_eq_ok.mp h
    obtain ⟨rfl, rfl⟩ := freshMemId_ok hid
    cases h
    obtain ⟨d', rfl⟩ := htyped
    cases hd
    -- The last operation with a result is the load, whether or not an allocation stands before it.
    have hlast : (emitted ++ [LoweredOp.load ty p offset b₃.nextValueId]).reverse.findSome?
        LoweredOp.result = some b₃.nextValueId := by
      rw [reverse_append]
      rfl
    have hready := ensureStackAlloca_ready hw₁ hp
    unfold bindMemoryResult
    dsimp only
    rw [hlast]
    refine (hready.prepared hw hskip rfl).one rfl rfl (fun v hv => nomatch hv) hnew fun hgrows => ?_
    rw [hready.emits]
    exact .stackLoad (memType_ok hty) (hgrows.slot _ _ hready.pointer) (takeValue_self b₃ d)
  · obtain ⟨value, hvalue, h⟩ := bind_eq_ok.mp h
    obtain ⟨ty, hty, h⟩ := bind_eq_ok.mp h
    obtain ⟨⟨p, emitted, b₃⟩, hp, h⟩ := bind_eq_ok.mp h
    cases h
    obtain rfl := htyped
    have hready := ensureStackAlloca_ready hw₁ hp
    have hvalue := hready.grows.value _ _ (lookupMem_ok hvalue)
    refine (hready.prepared hw hskip rfl).none rfl rfl (forall_mem_singleton.mpr ⟨value, hvalue⟩) ?_
    rw [hready.emits]
    exact .stackStore (memType_ok hty) hvalue hready.pointer
  · cases h
    rfl

/-! ### The driver -/

theorem bindResultIfAny_takes (h : TakesOne f i b d op) :
    bindResultIfAny i op { b with nextValueId := b.nextValueId + 1 } = b.takeValue d := by
  unfold bindResultIfAny
  rw [h.result, h.results]
  rfl

variable {location : InstLocation}

theorem memoryAttempt_ok {answer : Option (List LoweredOp) × LoweringBuilder}
    (h : memoryAttempt f i location b = .ok answer) : lowerMemoryInst f i b = .ok answer := by
  unfold memoryAttempt at h
  split at h
  · next hm => rw [hm, Except.ok.inj h]
  · cases h

/-- The families after the memory family. -/
theorem stepped_rest {b₁ b' : LoweringBuilder} (hw : Walked f before b) (hskip : Skips b b₁)
    (hclass : classifyOpcode i.data.opcode = none) (htyped : f.InstTyped i)
    (hnew : ∀ d ∈ i.results, d ∉ f.params ++ before.flatMap (·.results))
    (h : dispatchRest f i location b₁ = .ok (ops, b')) : Stepped f before b i ops b' := by
  unfold dispatchRest at h
  cases hcf : lowerCfInst i b₁ with
  | some op =>
    rw [hcf] at h
    cases h
    exact stepped_none hw hskip (lowerCfInst_some htyped hcf)
  | none =>
    rw [hcf] at h
    have hmoves := lowerVectorInst_moves f i b₁
    cases hvec : lowerVectorInst f i b₁ with
    | mk answer b₂ =>
      rw [hvec] at h hmoves
      cases answer with
      | some op =>
        obtain ⟨d, htakes, rfl⟩ := lowerVectorInst_some hclass htyped hvec
        dsimp only at h
        rw [bindResultIfAny_takes htakes] at h
        cases h
        exact stepped_one hw hskip htakes hnew
      | none =>
        have hskip₂ : Skips b b₂ := IsTrans.trans _ _ _ hskip hmoves
        dsimp only at h
        cases hconv : lowerConvInst f i b₂ with
        | mk answer b₃ =>
          rw [hconv] at h
          cases answer with
          | some op =>
            obtain ⟨d, htakes, rfl⟩ := lowerConvInst_some hconv
            dsimp only at h
            rw [bindResultIfAny_takes htakes] at h
            cases h
            exact stepped_one hw hskip₂ htakes hnew
          | none => cases h

/-- Whichever family takes an instruction that is off the reject-list, it lowers as `InstLowers` says
and keeps the walk's invariant. -/
theorem dispatch_stepped (hw : Walked f before b) (hclass : classifyOpcode i.data.opcode = none)
    (htyped : f.InstTyped i) (hnew : ∀ d ∈ i.results, d ∉ f.params ++ before.flatMap (·.results))
    (h : dispatchInst f i location b = .ok (ops, b')) : Stepped f before b i ops b' := by
  unfold dispatchInst at h
  have hgives := lowerArithInst_givesUp f i b
  cases harith : lowerArithInst f i b with
  | mk answer b₁ =>
    rw [harith] at h hgives
    cases answer with
    | some op =>
      cases h
      obtain ⟨d, htakes, rfl⟩ := lowerArithInst_some hclass harith
      exact stepped_one hw (Std.Refl.refl b) htakes hnew
    | none =>
      have hskip : Skips b b₁ := hgives rfl
      dsimp only at h
      rw [lowerFloatInst_none b₁ hclass] at h
      obtain ⟨⟨answer, b₂⟩, hmem, hrest⟩ := bind_eq_ok.mp h
      have hmem := stepped_memory hw hskip htyped hnew (memoryAttempt_ok hmem)
      cases answer with
      | some memOps =>
        cases hrest
        exact hmem
      | none =>
        obtain rfl : b₂ = b₁ := hmem
        exact stepped_rest hw hskip hclass htyped hnew hrest

end TensorWasm.Clif
