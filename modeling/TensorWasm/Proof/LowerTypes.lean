import TensorWasm.Proof.LowerSsa

/-!
# Types of the lowered function

`WellTyped` gives every lowered id the type of its definition and asks every use to have the type the
lowered IR documents for it. Each family maps types by a table of its own; the tables agree, so the only
disagreement left is about booleans. `vall_true` and `vany_true` define a `Bool` where Cranelift has an
`i8`, and a condition must be a `Bool` where Cranelift takes any integer. `wellTyped_iff` says that this
is all: the lowered function is well typed exactly when conditions are results of those two opcodes and
their results are used as conditions only.
-/

namespace TensorWasm.Clif

open Lib List

/-! ## The typing rules of the lowered IR -/

/-- The arguments have the types of the parameters of the target block. -/
def LoweredFunction.ArgsTyped (L : LoweredFunction) (τ : LoweredValueId → LoweredType)
    (target : LoweredBlockId) (args : List LoweredValueId) : Prop :=
  ∃ b ∈ L.blocks, b.id = target ∧ args.map τ = b.params.map Prod.snd

/-- The documented types of the operands and of the result of an operation. A vector operation records
its lane type only, so its operands agree on some lane count. The base of an access and the value of a
switch have no type of their own. -/
def LoweredFunction.OpTyped (L : LoweredFunction) (τ : LoweredValueId → LoweredType) :
    LoweredOp → Prop
  | .arith _ ty lhs rhs result | .float _ ty lhs rhs result =>
    τ lhs = ty ∧ τ rhs = ty ∧ τ result = ty
  | .fma ty a b c result => τ a = ty ∧ τ b = ty ∧ τ c = ty ∧ τ result = ty
  | .fNeg ty src result | .fAbs ty src result => τ src = ty ∧ τ result = ty
  | .load ty _ _ result => τ result = ty
  | .store ty value _ _ => τ value = ty
  | .stackAlloc _ _ result => τ result = .ptr
  | .br target args => L.ArgsTyped τ target args
  | .condBr cond thenTarget thenArgs elseTarget elseArgs =>
    τ cond = .bool ∧ L.ArgsTyped τ thenTarget thenArgs ∧ L.ArgsTyped τ elseTarget elseArgs
  | .switch _ defaultTarget cases =>
    L.ArgsTyped τ defaultTarget [] ∧ ∀ c ∈ cases, L.ArgsTyped τ c.2 []
  | .return values => values.map τ = L.signature.returns
  | .vMin laneTy _ lhs rhs result | .vMax laneTy _ lhs rhs result =>
    ∃ n, τ lhs = .v128 laneTy n ∧ τ rhs = .v128 laneTy n ∧ τ result = .v128 laneTy n
  | .vSplat laneTy src result => τ src = laneTy ∧ ∃ n, τ result = .v128 laneTy n
  | .vSelect laneTy cond thenV elseV result =>
    ∃ n, (∃ maskTy, τ cond = .v128 maskTy n) ∧ τ thenV = .v128 laneTy n ∧
      τ elseV = .v128 laneTy n ∧ τ result = .v128 laneTy n
  | .vAllTrue src result | .vAnyTrue src result =>
    (∃ laneTy n, τ src = .v128 laneTy n) ∧ τ result = .bool
  | .select ty cond thenV elseV result =>
    τ cond = .bool ∧ τ thenV = ty ∧ τ elseV = ty ∧ τ result = ty
  | .conv _ fromTy toTy src result => τ src = fromTy ∧ τ result = toTy

/-- Some assignment of types gives every definition its documented type and fits every use. -/
def LoweredFunction.WellTyped (L : LoweredFunction) : Prop :=
  ∃ τ : LoweredValueId → LoweredType,
    (∀ b ∈ L.blocks, ∀ p ∈ b.params, τ p.1 = p.2) ∧ ∀ b ∈ L.blocks, ∀ op ∈ b.ops, L.OpTyped τ op

/-! ## The condition on the source -/

/-- The operands an instruction takes as a condition. -/
def InstData.conditions : InstData → List Value
  | .brif arg _ _ => [arg]
  | .ternary .select c _ _ => [c]
  | _ => []

/-- The operands an instruction takes as data. -/
def InstData.dataUses : InstData → List Value
  | .brif _ thenCall elseCall => thenCall.args ++ elseCall.args
  | .ternary .select _ x y => [x, y]
  | data => data.uses

/-- The value is the result of `vall_true` or `vany_true`. -/
def Function.IsTruth (f : Function) (v : Value) : Prop :=
  ∃ i ∈ f.insts, v ∈ i.results ∧ ∃ all x, i.data = .unary (truthOpcode all) x

/-- The instruction is `vall_true` or `vany_true`. -/
def InstData.makesTruth : InstData → Bool
  | .unary .vallTrue _ | .unary .vanyTrue _ => true
  | _ => false

variable {data : InstData}

theorem InstData.makesTruth_iff : data.makesTruth = true ↔ ∃ all x, data = .unary (truthOpcode all) x := by
  constructor
  · intro h
    unfold InstData.makesTruth at h
    split at h
    · exact ⟨true, _, rfl⟩
    · exact ⟨false, _, rfl⟩
    · cases h
  · rintro ⟨all, x, rfl⟩
    cases all <;> rfl

/-- Truth values are used as conditions, and nothing else is. -/
def Function.TruthUsed (f : Function) : Prop :=
  ∀ i ∈ f.insts, (∀ v ∈ i.data.conditions, f.IsTruth v) ∧ ∀ v ∈ i.data.dataUses, ¬ f.IsTruth v

/-! ## The tables agree -/

/-- The lowered type of a Cranelift type, without the limit on lane counts. Types without a lowering
get an arbitrary one. -/
def typeOf : ClType → LoweredType
  | .scalar s => s.toLowered.getD .ptr
  | .vector lane log2 => .v128 (lane.toLowered.getD .ptr) (2 ^ (log2.val + 1))
  | .dynamicVector _ _ => .ptr

variable {ty : ClType} {t : LoweredType}

theorem typeOf_of_int (h : craneliftIntTypeToLowered ty = some t) : typeOf ty = t := by
  unfold craneliftIntTypeToLowered at h
  split at h <;> first | exact Option.some.inj h | cases h

theorem typeOf_of_scalar (h : scalarTypeToLowered ty = some t) : typeOf ty = t := by
  cases ty with
  | scalar s =>
    have hs : s.toLowered = some t := h
    simp [typeOf, hs]
  | vector lane log2 | dynamicVector lane log2 => cases h

theorem typeOf_of_param (h : craneliftTypeToLowered ty = some t) : typeOf ty = t := by
  cases ty with
  | scalar s => cases s <;> first | exact Option.some.inj h | cases h
  | vector lane log2 =>
    unfold craneliftTypeToLowered at h
    cases hlane : lane.toLowered with
    | none =>
      simp only [hlane] at h
      cases h
    | some laneTy =>
      simp only [hlane] at h
      split at h
      · simp only [typeOf, hlane, Option.getD_some]
        exact Option.some.inj h
      · cases h
  | dynamicVector lane log2 => cases h

variable {laneTy : LoweredType}

theorem typeOf_of_lane (h : vectorLaneType ty = some laneTy) : typeOf ty = .v128 laneTy ty.laneCount := by
  cases ty with
  | vector lane log2 =>
    have hlane : lane.toLowered = some laneTy := h
    simp [typeOf, hlane, ClType.laneCount]
  | scalar s | dynamicVector lane log2 => cases h

/-- The lane type of a vector, as a scalar type. -/
theorem typeOf_scalar_lane (h : vectorLaneType ty = some laneTy) : typeOf (.scalar ty.laneType) = laneTy := by
  cases ty with
  | vector lane log2 =>
    have hlane : lane.toLowered = some laneTy := h
    simp [typeOf, ClType.laneType, hlane]
  | scalar s | dynamicVector lane log2 => cases h

theorem typeOf_ne_bool (ty : ClType) : typeOf ty ≠ .bool := by
  cases ty with
  | scalar s => cases s <;> exact fun h => by cases h
  | vector lane log2 | dynamicVector lane log2 => exact fun h => by cases h

theorem typeOf_vector (h : ty.isVector = true) : ∃ laneTy n, typeOf ty = .v128 laneTy n := by
  cases ty with
  | vector lane log2 => exact ⟨_, _, rfl⟩
  | scalar s | dynamicVector lane log2 => cases h

/-! ## Definitions -/

variable {f : Function} {v : Value}

/-- A value is the result of one instruction. -/
theorem Verified.inst_unique (hv : Verified f) {i j : Inst} (hi : i ∈ f.insts) (hj : j ∈ f.insts)
    (hvi : v ∈ i.results) (hvj : v ∈ j.results) : i = j := by
  obtain ⟨a, ha⟩ := mem_iff_getElem?.mp hi
  obtain ⟨b, hb⟩ := mem_iff_getElem?.mp hj
  obtain rfl := flatMap_index_unique hv.defs_nodup.of_append_right ha hb hvi hvj
  rw [ha] at hb
  exact Option.some.inj hb

theorem Verified.param_not_truth (hv : Verified f) (h : v ∈ f.params) : ¬ f.IsTruth v := by
  rintro ⟨i, hi, hres, -⟩
  exact disjoint_of_nodup_append hv.defs_nodup h (mem_flatMap.mpr ⟨i, hi, hres⟩)

/-- The result of an instruction is a truth value exactly when the instruction makes one. -/
theorem Verified.truth_iff (hv : Verified f) {i : Inst} (hi : i ∈ f.insts)
    (h : v ∈ i.results) : f.IsTruth v ↔ i.data.makesTruth = true := by
  rw [InstData.makesTruth_iff]
  constructor
  · rintro ⟨j, hj, hres, htruth⟩
    rwa [hv.inst_unique hi hj h hres]
  · intro htruth
    exact ⟨i, hi, h, htruth⟩

/-- A truth value is an `i8` in Cranelift. -/
theorem Verified.truth_type (hv : Verified f) (h : f.IsTruth v) : f.valueType v = .scalar .i8 := by
  obtain ⟨⟨data, results⟩, hi, hres, all, x, hdata⟩ := h
  have htyped := hv.typed _ hi
  cases hdata
  obtain ⟨d, hd, hty⟩ : ∃ d, results = [d] ∧ f.valueType d = .scalar .i8 := by
    cases all <;> exact htyped.imp fun d hd => ⟨hd.1, hd.2.1⟩
  rw [hd] at hres
  rwa [mem_singleton.mp hres]

theorem lowerAbiParams_ok {kind : String} {idx : Nat} {ps : List AbiParam} {tys : List LoweredType}
    (h : lowerAbiParams kind idx ps = .ok tys) :
    List.Forall₂ (fun p ty => craneliftTypeToLowered p.valueType = some ty) ps tys := by
  induction ps generalizing idx tys with
  | nil =>
    cases h
    exact .nil
  | cons p ps ih =>
    unfold lowerAbiParams at h
    obtain ⟨ty, hty, h⟩ := bind_eq_ok.mp h
    obtain ⟨rest, hrest, h⟩ := bind_eq_ok.mp h
    cases h
    refine .cons ?_ (ih hrest)
    unfold lowerAbiParam at hty
    split at hty
    · cases hty
    · cases hp : craneliftTypeToLowered p.valueType with
      | none =>
        simp only [hp] at hty
        cases hty
      | some ty' =>
        simp only [hp] at hty
        cases hty
        rfl

open Classical in
/-- Truth values are booleans, other values have their Cranelift type, and slots are pointers. -/
noncomputable def typing (f : Function) (m : Maps) (d : LoweredValueId) : LoweredType :=
  if h : ∃ v, m.value v = some d then
    if f.IsTruth h.choose then .bool else typeOf (f.valueType h.choose)
  else .ptr

namespace LoweredAs

variable {L : LoweredFunction} {m : Maps} {d : LoweredValueId} {v : Value} {i : Inst} {above : List Inst}
  {t : LoweredBlockId} {iops : List LoweredOp} {τ : LoweredValueId → LoweredType} {lb : LoweredBlock}

/-- The types of the parameters of a lowered block. -/
theorem param_types {blk : ClBlock} (hb : BlockLowers f m above blk lb) :
    lb.params.map Prod.snd = blk.params.map fun v => typeOf (f.valueType v) := by
  have hparams := hb.params
  revert hparams
  generalize blk.params = vs
  generalize lb.params = ps
  intro hparams
  induction hparams with
  | nil => rfl
  | cons hp _ ih => rw [map_cons, map_cons, ih, typeOf_of_param hp.2]

/-- What has the type of a Cranelift type is not a boolean. -/
theorem ne_bool_of_type {cl : ClType} (hty : τ d = typeOf cl) : τ d ≠ .bool := by
  rw [hty]
  exact typeOf_ne_bool cl

theorem ne_bool_of_vector {n : Nat} (hty : τ d = .v128 laneTy n) : τ d ≠ .bool := by
  rw [hty]
  exact nofun

/-- The value is not a boolean, or its Cranelift type already says that it is no truth value. -/
def NotTruth (f : Function) (m : Maps) (τ : LoweredValueId → LoweredType) (v : Value) : Prop :=
  (∃ d, m.value v = some d ∧ τ d ≠ .bool) ∨ f.valueType v ≠ .scalar .i8

theorem notTruth_of_type {cl : ClType} (hd : m.value v = some d) (hty : τ d = typeOf cl) :
    NotTruth f m τ v := .inl ⟨d, hd, ne_bool_of_type hty⟩

theorem notTruth_of_address (h : f.valueType v = .scalar .i32 ∨ f.valueType v = .scalar .i64) : NotTruth f m τ v := by
  right
  rcases h with h | h <;> rw [h] <;> exact nofun

theorem notTruth_of_vector {n : Nat} (hd : m.value v = some d)
    (hty : τ d = .v128 laneTy n) : NotTruth f m τ v := .inl ⟨d, hd, ne_bool_of_vector hty⟩

/-- What a typed function says of the values of an instruction: its conditions are booleans, no operand it
takes as data is a truth value, and its result is a boolean exactly when it makes a truth value. -/
structure TruthTyped (f : Function) (m : Maps) (τ : LoweredValueId → LoweredType) (i : Inst) : Prop where
  conditions : ∀ v ∈ i.data.conditions, ∃ d, m.value v = some d ∧ τ d = .bool
  dataUses : ∀ v ∈ i.data.dataUses, NotTruth f m τ v
  results : ∀ v ∈ i.results, ∀ d, m.value v = some d → (τ d = .bool ↔ i.data.makesTruth = true)

/-- The only result of an instruction that makes no truth value is no boolean. -/
theorem result_not_bool {r : Value} {id : LoweredValueId} (hid : m.value r = some id)
    (hne : τ id ≠ .bool) (hno : data.makesTruth = false) :
    ∀ v ∈ [r], ∀ d, m.value v = some d → (τ d = .bool ↔ data.makesTruth = true) := by
  refine forall_mem_singleton.mpr fun d hd => ?_
  cases hid.symm.trans hd
  simp [hno, hne]

theorem conditions_subset (h : v ∈ data.conditions) : v ∈ data.uses := by
  cases data with
  | brif arg thenCall elseCall => exact mem_append_left _ h
  | ternary op x y z =>
    cases op with
    | select =>
      rw [mem_singleton.mp h]
      exact mem_append_left _ mem_cons_self
    | _ => cases h
  | _ => cases h

theorem dataUses_subset (h : v ∈ data.dataUses) : v ∈ data.uses := by
  cases data with
  | brif arg thenCall elseCall =>
    refine mem_append_right _ ?_
    simpa [InstData.branchDestination] using mem_append.mp h
  | ternary op x y z =>
    cases op with
    | select => exact mem_append_left _ (mem_cons_of_mem _ h)
    | _ => exact h
  | _ => exact h

variable (h : LoweredAs f L m)

include h

/-- The image of an instruction: its operations are among those of the image of its block. -/
theorem inst_image {i : Inst} (hi : i ∈ f.insts) :
    ∃ above iops, InstLowers f m above i iops ∧ (∃ lb ∈ L.blocks, ∀ op ∈ iops, op ∈ lb.ops) ∧
      ∀ v ∈ i.data.uses, v ∈ f.params ++ f.results := by
  obtain ⟨k, blk, hk, hi⟩ := mem_insts hi
  obtain ⟨lb, hlb, -, hb⟩ := h.image hk
  obtain ⟨ipre, ipost, hinsts⟩ := append_of_mem hi
  have hlower := hb.insts
  rw [hinsts] at hlower
  obtain ⟨opsPre, iops, opsPost, hops, -, hlow, huses⟩ := hlower.of_inst
  refine ⟨_, iops, hlow, ⟨lb, mem_of_getElem? hlb, fun op hop => ?_⟩, fun v hv => ?_⟩
  · rw [hops]
    exact mem_append_right _ (mem_append_left _ hop)
  · -- What comes before in layout order is part of the function.
    rcases mem_append.mp (huses v hv) with hparam | hresult
    · exact mem_append_left _ hparam
    · refine mem_append_right _ ?_
      obtain ⟨j, hj, hres⟩ := mem_flatMap.mp hresult
      refine mem_flatMap.mpr ⟨j, ?_, hres⟩
      rcases mem_append.mp hj with hj | hj
      · obtain ⟨b, hb', hjb⟩ := mem_flatMap.mp hj
        exact mem_flatMap.mpr ⟨b, mem_of_mem_take hb', hjb⟩
      · refine mem_flatMap.mpr ⟨blk, mem_of_getElem? hk, ?_⟩
        rw [hinsts]
        exact mem_append_left _ hj

/-- Every operation belongs to an instruction. -/
theorem op_preimage (hlb : lb ∈ L.blocks) {op : LoweredOp}
    (hop : op ∈ lb.ops) : ∃ i ∈ f.insts, ∃ above iops, InstLowers f m above i iops ∧ op ∈ iops := by
  obtain ⟨k, hk⟩ := mem_iff_getElem?.mp hlb
  obtain ⟨blk, hblk, -, hb⟩ := h.preimage hk
  obtain ⟨above, below, hops⟩ := append_of_mem hop
  obtain ⟨ipre, i, ipost, opsPre, a, c, hinsts, -, -, hlow, -⟩ := hb.insts.of_op hops
  refine ⟨i, mem_flatMap.mpr ⟨blk, mem_of_getElem? hblk, ?_⟩, _, _, hlow, mem_append_right _ mem_cons_self⟩
  rw [hinsts]
  exact mem_append_right _ mem_cons_self

theorem returns_lowered :
    List.Forall₂ (fun p ty => craneliftTypeToLowered p.valueType = some ty)
      f.signature.returns L.signature.returns := by
  have hsig := loweredSignature_ok h.signature
  unfold lowerSignature at hsig
  split at hsig
  · obtain ⟨params, -, hsig⟩ := bind_eq_ok.mp hsig
    obtain ⟨returns, hreturns, hsig⟩ := bind_eq_ok.mp hsig
    rw [← Except.ok.inj hsig]
    exact lowerAbiParams_ok hreturns
  · cases hsig

/-- The return types of the lowered signature. -/
theorem returns_types : L.signature.returns = f.signature.returns.map fun p => typeOf p.valueType := by
  have hlowered := h.returns_lowered
  generalize f.signature.returns = ps, L.signature.returns = tys at hlowered
  induction hlowered with
  | nil => rfl
  | cons hty _ ih => rw [map_cons, typeOf_of_param hty, ← ih]

/-! ## From the condition to a typing -/

theorem value_inj {w : Value} (hv : m.value v = some d) (hw : m.value w = some d) : v = w :=
  Sum.inl.inj (h.inj (.inl v) (.inl w) d hv hw)

theorem typing_eq (hd : m.value v = some d) :
    (f.IsTruth v → typing f m d = .bool) ∧ (¬ f.IsTruth v → typing f m d = typeOf (f.valueType v)) := by
  have hex : ∃ v, m.value v = some d := ⟨v, hd⟩
  have hchoose : hex.choose = v := h.value_inj hex.choose_spec hd
  unfold typing
  rw [dif_pos hex, hchoose]
  constructor
  · intro ht
    exact if_pos ht
  · intro ht
    exact if_neg ht

theorem typing_data (hd : m.value v = some d) (hno : ¬ f.IsTruth v) :
    typing f m d = typeOf (f.valueType v) := (h.typing_eq hd).2 hno

theorem typing_slot {slot : StackSlot} (hd : m.slot slot = some d) : typing f m d = .ptr := by
  unfold typing
  refine dif_neg ?_
  rintro ⟨v, hv⟩
  cases h.inj (.inl v) (.inr slot) d hv hd

/-- A result of an instruction that makes no truth value. -/
theorem typing_result (hv : Verified f) (hi : i ∈ f.insts) (hres : v ∈ i.results)
    (hd : m.value v = some d) (hno : i.data.makesTruth = false) : typing f m d = typeOf (f.valueType v) := by
  refine h.typing_data hd ?_
  rw [hv.truth_iff hi hres, hno]
  exact Bool.false_ne_true

theorem typing_list {vs : List Value} {ids : List LoweredValueId}
    (hids : List.Forall₂ (fun v d => m.value v = some d) vs ids) (hno : ∀ v ∈ vs, ¬ f.IsTruth v) :
    ids.map (typing f m) = vs.map fun v => typeOf (f.valueType v) := by
  induction hids with
  | nil => rfl
  | @cons v d vs ids hd _ ih =>
    rw [map_cons, map_cons, h.typing_data hd (hno v mem_cons_self), ih fun w hw => hno w (mem_cons_of_mem _ hw)]

theorem argsTyped {call : BlockCall} (hcall : f.CallTyped call) (ht : m.block call.block = some t)
    {args : List LoweredValueId} (hargs : List.Forall₂ (fun v d => m.value v = some d) call.args args)
    (hno : ∀ v ∈ call.args, ¬ f.IsTruth v) : L.ArgsTyped (typing f m) t args := by
  obtain ⟨blk, hblk, hname, htypes⟩ := hcall
  obtain ⟨k, hk⟩ := mem_iff_getElem?.mp hblk
  obtain ⟨lb, hlb, hid, hb⟩ := h.image hk
  refine ⟨lb, mem_of_getElem? hlb, ?_, ?_⟩
  · rw [← hname, h.blockIds k blk hk] at ht
    rw [hid]
    exact Option.some.inj ht
  · rw [h.typing_list hargs hno, param_types hb]
    have hmap := congrArg (List.map typeOf) htypes
    rwa [map_map, map_map] at hmap

theorem allocaOps_typed {slot : StackSlot} {ty : LoweredType} {p : LoweredValueId}
    (hslot : m.slot slot = some p) : ∀ op ∈ allocaOps f above slot ty p, L.OpTyped (typing f m) op := by
  intro op hop
  unfold allocaOps at hop
  split at hop
  · cases hop
  · rw [mem_singleton.mp hop]
    exact h.typing_slot hslot

/-- The instructions whose operands and result share one type. -/
theorem typing_same {x d : Value} {l : LoweredValueId} (hx : m.value x = some l)
    (hno : ¬ f.IsTruth x) (hty : f.valueType x = f.valueType d) : typing f m l = typeOf (f.valueType d) := by
  rw [h.typing_data hx hno, hty]

/-- An integer operation of two operands gives both and its result the type of the result. -/
theorem typing_binary (hv : Verified f) (htruth : f.TruthUsed) {op : BinaryOpcode}
    {x y d : Value} (hi : ⟨.binary op x y, [d]⟩ ∈ f.insts) (hint : op.isIntegerOp = true) {l r id : LoweredValueId}
    (hx : m.value x = some l) (hy : m.value y = some r) (hd : m.value d = some id) :
    typing f m l = typeOf (f.valueType d) ∧ typing f m r = typeOf (f.valueType d) ∧
      typing f m id = typeOf (f.valueType d) := by
  obtain ⟨d', hres, hxty, hyty, -⟩ := hv.typed _ hi hint
  cases hres
  have hdata := (htruth _ hi).2
  exact ⟨h.typing_same hx (hdata x mem_cons_self) hxty,
    h.typing_same hy (hdata y (mem_cons_of_mem _ mem_cons_self)) hyty, h.typing_result hv hi mem_cons_self hd rfl⟩

theorem opTyped (hv : Verified f) (htruth : f.TruthUsed) (hi : i ∈ f.insts)
    (hlow : InstLowers f m above i iops) : ∀ op ∈ iops, L.OpTyped (typing f m) op := by
  have htyped := hv.typed i hi
  obtain ⟨hconds, hdata⟩ := htruth i hi
  cases hlow with
  | @arith op kind x y d ty l r id hkind hty hx hy hd =>
    refine forall_mem_singleton.mpr ?_
    rw [← typeOf_of_int hty]
    exact h.typing_binary hv htruth hi (by cases op <;> first | rfl | cases hkind) hx hy hd
  | @vMin signed _ _ d _ _ _ _ hlane hx hy hd | @vMax signed _ _ d _ _ _ _ hlane hx hy hd =>
    refine forall_mem_singleton.mpr ⟨(f.valueType d).laneCount, ?_⟩
    rw [← typeOf_of_lane hlane]
    exact h.typing_binary hv htruth hi (by cases signed <;> rfl) hx hy hd
  | @vSplat x d laneTy s id hlane hx hd =>
    obtain ⟨d', hres, hxty, -⟩ := htyped
    cases hres
    have hnx := hdata x mem_cons_self
    refine forall_mem_singleton.mpr ⟨?_, (f.valueType d).laneCount, ?_⟩
    · rw [h.typing_data hx hnx, hxty]
      exact typeOf_scalar_lane hlane
    · rw [← typeOf_of_lane hlane]
      exact h.typing_result hv hi mem_cons_self hd rfl
  | @vTruth all x d s id hvec hx hd =>
    have hnx := hdata x mem_cons_self
    have hsrc : ∃ laneTy n, typing f m s = .v128 laneTy n := by
      rw [h.typing_data hx hnx]
      exact typeOf_vector hvec
    have hresult : typing f m id = .bool :=
      (h.typing_eq hd).1 ((hv.truth_iff hi mem_cons_self).mpr (by cases all <;> rfl))
    refine forall_mem_singleton.mpr ?_
    cases all with
    | true | false => exact ⟨hsrc, hresult⟩
  | @vSelect c x y d laneTy k l r id hlane hc hx hy hd =>
    obtain ⟨d', hres, hcty, hxty, hyty⟩ := htyped
    cases hres
    have hnc := hdata c mem_cons_self
    have hnx := hdata x (mem_cons_of_mem _ mem_cons_self)
    have hny := hdata y (mem_cons_of_mem _ (mem_cons_of_mem _ mem_cons_self))
    refine forall_mem_singleton.mpr ⟨(f.valueType d).laneCount, ⟨laneTy, ?_⟩, ?_⟩
    · rw [← typeOf_of_lane hlane]
      exact h.typing_same hc hnc hcty
    · rw [← typeOf_of_lane hlane]
      exact ⟨h.typing_same hx hnx hxty, h.typing_same hy hny hyty, h.typing_result hv hi mem_cons_self hd rfl⟩
  | @select c x y d ty k l r id hty hc hx hy hd =>
    obtain ⟨d', hres, -, hxty, hyty⟩ := htyped
    cases hres
    have hcond := hconds c mem_cons_self
    have hnx := hdata x mem_cons_self
    have hny := hdata y (mem_cons_of_mem _ mem_cons_self)
    refine forall_mem_singleton.mpr ⟨(h.typing_eq hc).1 hcond, ?_⟩
    rw [← typeOf_of_scalar hty]
    exact ⟨h.typing_same hx hnx hxty, h.typing_same hy hny hyty, h.typing_result hv hi mem_cons_self hd rfl⟩
  | @bitcast flags x d fromTy toTy s id hfrom hto hx hd =>
    have hnx := hdata x mem_cons_self
    refine forall_mem_singleton.mpr ⟨?_, ?_⟩
    · rw [h.typing_data hx hnx, typeOf_of_scalar hfrom]
    · rw [← typeOf_of_scalar hto]
      exact h.typing_result hv hi mem_cons_self hd rfl
  | @resize op kind x d fromTy toTy s id hkind hfrom hto hint hx hd =>
    have hnx := hdata x mem_cons_self
    refine forall_mem_singleton.mpr ⟨?_, ?_⟩
    · rw [h.typing_data hx hnx, typeOf_of_scalar hfrom]
    · rw [← typeOf_of_scalar hto]
      exact h.typing_result hv hi mem_cons_self hd (by cases op <;> first | rfl | cases hkind)
  | @load flags x d offset ty base id hty hx hd =>
    refine forall_mem_singleton.mpr ?_
    rw [← typeOf_of_scalar hty]
    exact h.typing_result hv hi mem_cons_self hd rfl
  | @store flags v x offset ty value base hty hvalue hx =>
    have hnv := hdata v mem_cons_self
    refine forall_mem_singleton.mpr ?_
    rw [← typeOf_of_scalar hty]
    exact h.typing_data hvalue hnv
  | @stackLoad slot offset d ty p id hty hslot hd =>
    refine forall_mem_append.mpr ⟨?_, forall_mem_singleton.mpr ?_⟩
    · exact h.allocaOps_typed hslot
    · rw [← typeOf_of_scalar hty]
      exact h.typing_result hv hi mem_cons_self hd rfl
  | @stackStore v slot offset ty value p hty hvalue hslot =>
    have hnv := hdata v mem_cons_self
    refine forall_mem_append.mpr ⟨?_, forall_mem_singleton.mpr ?_⟩
    · exact h.allocaOps_typed hslot
    · rw [← typeOf_of_scalar hty]
      exact h.typing_data hvalue hnv
  | @jump call target args ht hargs =>
    refine forall_mem_singleton.mpr (h.argsTyped htyped.2 ht hargs fun v hvc => ?_)
    refine hdata v ?_
    simpa [InstData.dataUses, InstData.uses, InstData.args, InstData.branchDestination] using hvc
  | @brif c thenCall elseCall cond thenTarget elseTarget thenArgs elseArgs hc ht he hthen helse =>
    obtain ⟨-, -, hthenTyped, helseTyped⟩ := htyped
    refine forall_mem_singleton.mpr ⟨(h.typing_eq hc).1 (hconds c mem_cons_self), ?_, ?_⟩
    · exact h.argsTyped hthenTyped ht hthen fun v hvc => hdata v (mem_append_left _ hvc)
    · exact h.argsTyped helseTyped he helse fun v hvc => hdata v (mem_append_right _ hvc)
  | @brTable x default table value target cases hx ht hnil hcases =>
    obtain ⟨-, -, hdefault, htable⟩ := htyped
    have hempty : ∀ call : BlockCall, call.args = [] → f.CallTyped call → ∀ t,
        m.block call.block = some t → L.ArgsTyped (typing f m) t [] := by
      intro call hargs hcall t hblock
      refine h.argsTyped hcall hblock ?_ ?_
      · rw [hargs]
        exact .nil
      · rw [hargs]
        exact fun v hvn => absurd hvn not_mem_nil
    refine forall_mem_singleton.mpr ⟨hempty default hnil hdefault target ht, ?_⟩
    intro c hc
    obtain ⟨k, hk⟩ := mem_iff_getElem?.mp hc
    have hlt : k < table.length := by
      rw [← hcases.1]
      exact (List.getElem?_eq_some_iff.mp hk).1
    obtain ⟨hargs, t, hblock, hcase⟩ := hcases.2 k table[k] (List.getElem?_eq_getElem hlt)
    rw [hk] at hcase
    cases hcase
    exact hempty table[k] hargs (htable _ (getElem_mem hlt)) t hblock
  | @ret args values hargs =>
    refine forall_mem_singleton.mpr ?_
    have hno : ∀ v ∈ args, ¬ f.IsTruth v := fun v hva => hdata v (mem_append_left _ hva)
    have hmap := congrArg (List.map typeOf) htyped.2
    rw [map_map, map_map] at hmap
    have hreturns : values.map (typing f m) = L.signature.returns := by
      rw [h.typing_list hargs hno, h.returns_types]
      exact hmap
    exact hreturns

theorem wellTyped_of_truthUsed (hv : Verified f) (htruth : f.TruthUsed) : L.WellTyped := by
  refine ⟨typing f m, ?_, ?_⟩
  · intro lb hlb p hp
    obtain ⟨k, hk⟩ := mem_iff_getElem?.mp hlb
    obtain ⟨blk, hblk, -, hb⟩ := h.preimage hk
    obtain ⟨v, hvmem, hid, hty⟩ := forall₂_right hb.params hp
    have hparam : v ∈ f.params := mem_flatMap.mpr ⟨blk, mem_of_getElem? hblk, hvmem⟩
    rw [h.typing_data hid (hv.param_not_truth hparam), typeOf_of_param hty]
  · intro lb hlb op hop
    obtain ⟨i, hi, above, iops, hlow, hmem⟩ := h.op_preimage hlb hop
    exact h.opTyped hv htruth hi hlow op hmem

/-! ## From a typing to the condition -/

theorem param_ne_bool (hlb : lb ∈ L.blocks)
    {p : LoweredValueId × LoweredType} (hp : p ∈ lb.params) : p.2 ≠ .bool := by
  obtain ⟨k, hk⟩ := mem_iff_getElem?.mp hlb
  obtain ⟨blk, -, -, hb⟩ := h.preimage hk
  obtain ⟨v, -, -, hty⟩ := forall₂_right hb.params hp
  rw [← typeOf_of_param hty]
  exact typeOf_ne_bool _

/-- No argument of a typed branch is a boolean. -/
theorem args_ne_bool {args : List LoweredValueId} (htyped : L.ArgsTyped τ t args) (hd : d ∈ args) : τ d ≠ .bool := by
  obtain ⟨b, hb, -, hmap⟩ := htyped
  have hmem : τ d ∈ b.params.map Prod.snd := by
    rw [← hmap]
    exact mem_map_of_mem hd
  obtain ⟨p, hp, heq⟩ := mem_map.mp hmem
  rw [← heq]
  exact h.param_ne_bool hb hp

theorem notTruth_of_args {vs : List Value} {ids : List LoweredValueId}
    (hids : List.Forall₂ (fun v d => m.value v = some d) vs ids) (htyped : L.ArgsTyped τ t ids) (hv : v ∈ vs) :
    NotTruth f m τ v := by
  obtain ⟨d, hd, hm⟩ := forall₂_left hids hv
  exact .inl ⟨d, hm, h.args_ne_bool htyped hd⟩

theorem truthTyped (htyped : f.InstTyped i) (hlow : InstLowers f m above i iops)
    (hops : ∀ op ∈ iops, L.OpTyped τ op) : TruthTyped f m τ i := by
  cases hlow with
  | arith _ hty hx hy hid =>
    obtain ⟨hl, hr, hd⟩ := hops _ mem_cons_self
    rw [← typeOf_of_int hty] at hl hr hd
    exact ⟨forall_mem_nil _, forall_pair (notTruth_of_type hx hl) (notTruth_of_type hy hr),
      result_not_bool hid (ne_bool_of_type hd) rfl⟩
  | vMin hlane hx hy hid | vMax hlane hx hy hid =>
    obtain ⟨n, hl, hr, hd⟩ := hops _ mem_cons_self
    exact ⟨forall_mem_nil _, forall_pair (notTruth_of_vector hx hl) (notTruth_of_vector hy hr),
      result_not_bool hid (ne_bool_of_vector hd) rfl⟩
  | vSplat hlane hx hid =>
    obtain ⟨hs, n, hd⟩ := hops _ mem_cons_self
    rw [← typeOf_scalar_lane hlane] at hs
    exact ⟨forall_mem_nil _, forall_mem_singleton.mpr (notTruth_of_type hx hs),
      result_not_bool hid (ne_bool_of_vector hd) rfl⟩
  | @vTruth all _ _ _ id _ hx hid =>
    have hop := hops _ mem_cons_self
    cases all with
    | true | false =>
      obtain ⟨⟨laneTy, n, hs⟩, hd⟩ := hop
      refine ⟨forall_mem_nil _, forall_mem_singleton.mpr (notTruth_of_vector hx hs), ?_⟩
      refine forall_mem_singleton.mpr fun d hd' => ?_
      cases hid.symm.trans hd'
      exact iff_of_true hd rfl
  | vSelect hlane hc hx hy hid =>
    obtain ⟨n, ⟨maskTy, hk⟩, hl, hr, hd⟩ := hops _ mem_cons_self
    exact ⟨forall_mem_nil _,
      forall_triple (notTruth_of_vector hc hk) (notTruth_of_vector hx hl) (notTruth_of_vector hy hr),
      result_not_bool hid (ne_bool_of_vector hd) rfl⟩
  | select hty hc hx hy hid =>
    obtain ⟨hk, hl, hr, hd⟩ := hops _ mem_cons_self
    rw [← typeOf_of_scalar hty] at hl hr hd
    exact ⟨forall_mem_singleton.mpr ⟨_, hc, hk⟩, forall_pair (notTruth_of_type hx hl) (notTruth_of_type hy hr),
      result_not_bool hid (ne_bool_of_type hd) rfl⟩
  | bitcast hfrom hto hx hid =>
    obtain ⟨hs, hd⟩ := hops _ mem_cons_self
    rw [← typeOf_of_scalar hfrom] at hs
    rw [← typeOf_of_scalar hto] at hd
    exact ⟨forall_mem_nil _, forall_mem_singleton.mpr (notTruth_of_type hx hs),
      result_not_bool hid (ne_bool_of_type hd) rfl⟩
  | @resize op _ _ _ _ _ _ _ hkind hfrom hto _ hx hid =>
    obtain ⟨hs, hd⟩ := hops _ mem_cons_self
    rw [← typeOf_of_scalar hfrom] at hs
    rw [← typeOf_of_scalar hto] at hd
    exact ⟨forall_mem_nil _, forall_mem_singleton.mpr (notTruth_of_type hx hs),
      result_not_bool hid (ne_bool_of_type hd) (by cases op <;> first | rfl | cases hkind)⟩
  | load hty _ hid =>
    have hd : τ _ = _ := hops _ mem_cons_self
    rw [← typeOf_of_scalar hty] at hd
    obtain ⟨_, -, haddr⟩ := htyped
    exact ⟨forall_mem_nil _, forall_mem_singleton.mpr (notTruth_of_address haddr),
      result_not_bool hid (ne_bool_of_type hd) rfl⟩
  | store hty hv _ =>
    have hs : τ _ = _ := hops _ mem_cons_self
    rw [← typeOf_of_scalar hty] at hs
    exact ⟨forall_mem_nil _, forall_pair (notTruth_of_type hv hs) (notTruth_of_address htyped.2), forall_mem_nil _⟩
  | stackLoad hty _ hid =>
    have hd : τ _ = _ := hops _ (mem_append_right _ mem_cons_self)
    rw [← typeOf_of_scalar hty] at hd
    exact ⟨forall_mem_nil _, forall_mem_nil _, result_not_bool hid (ne_bool_of_type hd) rfl⟩
  | stackStore hty hv _ =>
    have hs : τ _ = _ := hops _ (mem_append_right _ mem_cons_self)
    rw [← typeOf_of_scalar hty] at hs
    exact ⟨forall_mem_nil _, forall_mem_singleton.mpr (notTruth_of_type hv hs), forall_mem_nil _⟩
  | jump _ hargs =>
    refine ⟨forall_mem_nil _, fun v hv => ?_, forall_mem_nil _⟩
    refine h.notTruth_of_args hargs (hops _ mem_cons_self) ?_
    simpa [InstData.dataUses, InstData.uses, InstData.args, InstData.branchDestination] using hv
  | brif hc _ _ hthen helse =>
    obtain ⟨hk, hthenTyped, helseTyped⟩ := hops _ mem_cons_self
    refine ⟨forall_mem_singleton.mpr ⟨_, hc, hk⟩, ?_, forall_mem_nil _⟩
    refine forall_mem_append.mpr ⟨fun v hv => ?_, fun v hv => ?_⟩
    · exact h.notTruth_of_args hthen hthenTyped hv
    · exact h.notTruth_of_args helse helseTyped hv
  | @brTable x default table value target cases _ _ hnil hcases =>
    obtain ⟨-, hi32, -⟩ := htyped
    refine ⟨forall_mem_nil _, fun v hv => ?_, forall_mem_nil _⟩
    -- No destination carries an argument, so the switched value is the only use.
    have huse : v = x := by
      simp only [InstData.dataUses, InstData.uses, InstData.args, InstData.branchDestination,
        flatMap_cons, hnil, nil_append, mem_append, mem_singleton, mem_flatMap] at hv
      rcases hv with hv | ⟨call, hcall, hv⟩
      · exact hv
      · obtain ⟨k, hk⟩ := mem_iff_getElem?.mp hcall
        rw [(hcases.2 k call hk).1] at hv
        cases hv
    rw [huse]
    exact notTruth_of_address (.inl hi32)
  | ret hargs =>
    have hreturns : List.map τ _ = L.signature.returns := hops _ mem_cons_self
    refine ⟨forall_mem_nil _, forall_uses rfl fun v hv => ?_, forall_mem_nil _⟩
    obtain ⟨d, hd, hm⟩ := forall₂_left hargs hv
    have hmem : τ d ∈ L.signature.returns := by
      rw [← hreturns]
      exact mem_map_of_mem hd
    rw [h.returns_types] at hmem
    obtain ⟨p, -, hp⟩ := mem_map.mp hmem
    exact notTruth_of_type hm hp.symm

theorem truthUsed_of_wellTyped (hv : Verified f) (hty : L.WellTyped) : f.TruthUsed := by
  obtain ⟨τ, hparams, hops⟩ := hty
  -- Every defined value is a boolean exactly when it is a truth value.
  have hbool : ∀ v ∈ f.params ++ f.results, ∀ d, m.value v = some d → (τ d = .bool ↔ f.IsTruth v) := by
    intro v hdef d hd
    rcases mem_append.mp hdef with hparam | hresult
    · obtain ⟨blk, hblk, hmem⟩ := mem_flatMap.mp hparam
      obtain ⟨k, hk⟩ := mem_iff_getElem?.mp hblk
      obtain ⟨lb, hlb, -, hb⟩ := h.image hk
      obtain ⟨p, hp, hid, -⟩ := forall₂_left hb.params hmem
      rw [hd] at hid
      cases hid
      have hne : τ p.1 ≠ .bool := by
        rw [hparams lb (mem_of_getElem? hlb) p hp]
        exact h.param_ne_bool (mem_of_getElem? hlb) hp
      exact ⟨fun hb => absurd hb hne, fun ht => absurd ht (hv.param_not_truth hparam)⟩
    · obtain ⟨i, hi, hres⟩ := mem_flatMap.mp hresult
      obtain ⟨above, iops, hlow, ⟨lb, hlb, hsub⟩, -⟩ := h.inst_image hi
      rw [hv.truth_iff hi hres]
      exact (h.truthTyped (hv.typed i hi) hlow fun op hop => hops lb hlb op (hsub op hop)).results v hres d hd
  intro i hi
  obtain ⟨above, iops, hlow, ⟨lb, hlb, hsub⟩, huses⟩ := h.inst_image hi
  have htruth := h.truthTyped (hv.typed i hi) hlow fun op hop => hops lb hlb op (hsub op hop)
  constructor
  · intro v hcond
    obtain ⟨d, hd, hb⟩ := htruth.conditions v hcond
    exact (hbool v (huses v (conditions_subset hcond)) d hd).mp hb
  · intro v hdata hv'
    rcases htruth.dataUses v hdata with ⟨d, hd, hne⟩ | hne
    · exact hne ((hbool v (huses v (dataUses_subset hdata)) d hd).mpr hv')
    · exact hne (hv.truth_type hv')

end LoweredAs

/-- A lowered function is well typed exactly when every condition of the source is the result of
`vall_true` or `vany_true` and such results are used as conditions only. -/
theorem wellTyped_iff {f : Function} {L : LoweredFunction} (hv : Verified f)
    (h : lowerFunction f = .ok L) : L.WellTyped ↔ f.TruthUsed := by
  obtain ⟨m, hm⟩ := lowerFunction_spec hv h
  exact ⟨hm.truthUsed_of_wellTyped hv, hm.wellTyped_of_truthUsed hv⟩

/-- The branch tests the `i32` parameter, which the lowered branch takes as a boolean. -/
theorem branchAssign_not_wellTyped : Verified branchAssign ∧
    lowerFunction branchAssign = .ok branchAssignLowered ∧ ¬ branchAssignLowered.WellTyped := by
  refine ⟨verified_branchAssign, lowerFunction_branchAssign, ?_⟩
  rintro ⟨τ, hparams, hops⟩
  have hparam : τ 0 = .i32 :=
    hparams _ (mem_of_getElem? (i := 0) rfl) (0, .i32) mem_cons_self
  have hcond : τ 0 = .bool :=
    (hops _ (mem_of_getElem? (i := 0) rfl) _ mem_cons_self).1
  rw [hparam] at hcond
  cases hcond

theorem branchAssign_wellTyped_iff : Verified branchAssign ∧
    lowerFunction branchAssign = .ok branchAssignLowered ∧
    (branchAssignLowered.WellTyped ↔ branchAssign.TruthUsed) :=
  ⟨verified_branchAssign, lowerFunction_branchAssign, wellTyped_iff verified_branchAssign lowerFunction_branchAssign⟩

end TensorWasm.Clif
