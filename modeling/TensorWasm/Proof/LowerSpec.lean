import TensorWasm.Proof.LowerStep

/-!
# What a function lowers to

`lowerFunction_spec`: a verified function that is accepted lowers block by block and instruction by
instruction as `InstLowers` says, under one set of maps, and no lowered id is defined twice.
-/

namespace TensorWasm.Clif

open Lib List

/-- The second maps agree with the first wherever those are defined. -/
structure Maps.Le (m m' : Maps) : Prop where
  value : Extends m.value m'.value
  block : Extends m.block m'.block
  slot : Extends m.slot m'.slot

variable {b b' : LoweringBuilder}

theorem Grows.le (h : Grows b b') : b.maps.Le b'.maps :=
  ⟨h.value, fun k d hk => by rwa [LoweringBuilder.maps, h.block], h.slot⟩

variable {m m' : Maps} {vs : List Value}

theorem forall₂_mono (hle : m.Le m') {ids : List LoweredValueId}
    (h : List.Forall₂ (fun v d => m.value v = some d) vs ids) :
    List.Forall₂ (fun v d => m'.value v = some d) vs ids :=
  h.imp fun v d hd => hle.value v d hd

theorem CasesLower.mono (hle : m.Le m') {table : List BlockCall} {cases : List (Nat × LoweredBlockId)}
    (h : CasesLower m table cases) : CasesLower m' table cases := by
  refine ⟨h.1, ?_⟩
  intro k call hk
  obtain ⟨hargs, t, ht, hcase⟩ := h.2 k call hk
  exact ⟨hargs, t, hle.block _ _ ht, hcase⟩

variable {f : Function} {ops : List LoweredOp} {before : List Inst} {i : Inst}

theorem InstLowers.mono (hle : m.Le m') (h : InstLowers f m before i ops) : InstLowers f m' before i ops := by
  have hv := hle.value
  have hb := hle.block
  have hs := hle.slot
  cases h with
  | arith hkind hty hx hy hd => exact .arith hkind hty (hv _ _ hx) (hv _ _ hy) (hv _ _ hd)
  | vMin hlane hx hy hd => exact .vMin hlane (hv _ _ hx) (hv _ _ hy) (hv _ _ hd)
  | vMax hlane hx hy hd => exact .vMax hlane (hv _ _ hx) (hv _ _ hy) (hv _ _ hd)
  | vSplat hlane hx hd => exact .vSplat hlane (hv _ _ hx) (hv _ _ hd)
  | vTruth hvec hx hd => exact .vTruth hvec (hv _ _ hx) (hv _ _ hd)
  | vSelect hlane hc hx hy hd =>
    exact .vSelect hlane (hv _ _ hc) (hv _ _ hx) (hv _ _ hy) (hv _ _ hd)
  | select hty hc hx hy hd => exact .select hty (hv _ _ hc) (hv _ _ hx) (hv _ _ hy) (hv _ _ hd)
  | bitcast hfrom hto hx hd => exact .bitcast hfrom hto (hv _ _ hx) (hv _ _ hd)
  | resize hkind hfrom hto hint hx hd =>
    exact .resize hkind hfrom hto hint (hv _ _ hx) (hv _ _ hd)
  | load hty hx hd => exact .load hty (hv _ _ hx) (hv _ _ hd)
  | store hty hvalue hx => exact .store hty (hv _ _ hvalue) (hv _ _ hx)
  | stackLoad hty hslot hd => exact .stackLoad hty (hs _ _ hslot) (hv _ _ hd)
  | stackStore hty hvalue hslot => exact .stackStore hty (hv _ _ hvalue) (hs _ _ hslot)
  | jump ht hargs => exact .jump (hb _ _ ht) (forall₂_mono hle hargs)
  | brif hc ht he hthen helse =>
    exact .brif (hv _ _ hc) (hb _ _ ht) (hb _ _ he) (forall₂_mono hle hthen) (forall₂_mono hle helse)
  | brTable hx ht hargs hcases => exact .brTable (hv _ _ hx) (hb _ _ ht) hargs (hcases.mono hle)
  | ret hargs => exact .ret (forall₂_mono hle hargs)

/-- The instructions of a block, one after the other. Everything an instruction reads is a block
parameter or the result of an instruction earlier in layout order. -/
inductive InstsLower (f : Function) (m : Maps) : List Inst → List Inst → List LoweredOp → Prop
  | nil {before : List Inst} : InstsLower f m before [] []
  | cons {before : List Inst} {i : Inst} {insts : List Inst} {ops rest : List LoweredOp} :
      InstLowers f m before i ops → (∀ v ∈ i.data.uses, v ∈ f.params ++ before.flatMap (·.results)) →
      InstsLower f m (before ++ [i]) insts rest → InstsLower f m before (i :: insts) (ops ++ rest)

variable {before insts : List Inst}

theorem InstsLower.mono (hle : m.Le m') (h : InstsLower f m before insts ops) : InstsLower f m' before insts ops := by
  induction h with
  | nil => exact .nil
  | cons hi huses _ ih => exact .cons (hi.mono hle) huses ih

/-- A block parameter with its id and its type. -/
def ParamLowers (f : Function) (m : Maps) (v : Value) (p : LoweredValueId × LoweredType) : Prop :=
  m.value v = some p.1 ∧ craneliftTypeToLowered (f.valueType v) = some p.2

structure BlockLowers (f : Function) (m : Maps) (before : List Inst) (blk : ClBlock)
    (lb : LoweredBlock) : Prop where
  id : m.block blk.block = some lb.id
  params : List.Forall₂ (ParamLowers f m) blk.params lb.params
  insts : InstsLower f m before blk.insts lb.ops

inductive BlocksLower (f : Function) (m : Maps) : List Inst → List ClBlock → List LoweredBlock → Prop
  | nil {before : List Inst} : BlocksLower f m before [] []
  | cons {before : List Inst} {blk : ClBlock} {blks : List ClBlock} {lb : LoweredBlock}
      {lbs : List LoweredBlock} : BlockLowers f m before blk lb →
      BlocksLower f m (before ++ blk.insts) blks lbs → BlocksLower f m before (blk :: blks) (lb :: lbs)

/-! ## The walk over the instructions -/

/-- What is known of the instructions still to come. -/
structure Ahead (f : Function) (before insts : List Inst) : Prop where
  listed : ∀ i ∈ insts, classifyOpcode i.data.opcode = none
  typed : ∀ i ∈ insts, f.InstTyped i
  fresh : (f.params ++ (before ++ insts).flatMap (·.results)).Nodup

theorem Ahead.head_fresh (h : Ahead f before (i :: insts)) :
    ∀ d ∈ i.results, d ∉ f.params ++ before.flatMap (·.results) := by
  intro d hd hmem
  have hnodup := h.fresh
  rw [flatMap_append, ← append_assoc] at hnodup
  refine disjoint_of_nodup_append hnodup hmem ?_
  rw [flatMap_cons]
  exact mem_append_left _ hd

theorem Ahead.tail (h : Ahead f before (i :: insts)) : Ahead f (before ++ [i]) insts where
  listed j hj := h.listed j (mem_cons_of_mem _ hj)
  typed j hj := h.typed j (mem_cons_of_mem _ hj)
  fresh := by rw [append_assoc]; exact h.fresh

theorem lowerInsts_spec {block : Block} {k : Nat} (hw : Walked f before b)
    (hahead : Ahead f before insts) (h : lowerInsts f block k insts b = .ok (ops, b')) :
    InstsLower f b'.maps before insts ops ∧ Walked f (before ++ insts) b' ∧ Grows b b' ∧
      Taken (opResults ops) b.nextValueId b'.nextValueId := by
  induction insts generalizing before k b ops with
  | nil =>
    cases h
    rw [append_nil]
    exact ⟨.nil, hw, .refl _, .nil (Nat.le_refl _)⟩
  | cons i insts ih =>
    unfold lowerInsts at h
    obtain ⟨⟨first, b₁⟩, hfirst, h⟩ := bind_eq_ok.mp h
    obtain ⟨⟨rest, b₂⟩, hrest, h⟩ := bind_eq_ok.mp h
    cases h
    have hstep := dispatch_stepped hw (hahead.listed i mem_cons_self)
      (hahead.typed i mem_cons_self) hahead.head_fresh hfirst
    obtain ⟨hlower, hwalked, hgrows, htaken⟩ := ih hstep.walked hahead.tail hrest
    refine ⟨.cons (hstep.lowers.mono hgrows.le) hstep.inScope hlower, ?_, hstep.grows.trans hgrows, ?_⟩
    · rwa [append_assoc] at hwalked
    · rw [opResults_append]
      exact hstep.taken.append htaken

/-! ## The blocks -/

/-- The parameters of a block with the ids they were seeded with. -/
def ParamsSeeded (b : LoweringBuilder) (vs : List Value) (ps : List (LoweredValueId × Value)) : Prop :=
  List.Forall₂ (fun v p => p.2 = v ∧ b.valueMap v = some p.1) vs ps

def BlocksSeeded (b : LoweringBuilder) (blks : List ClBlock)
    (seeded : List (ClBlock × List (LoweredValueId × Value))) : Prop :=
  List.Forall₂ (fun blk s => s.1 = blk ∧ ParamsSeeded b blk.params s.2) blks seeded

variable {ps : List (LoweredValueId × Value)}

theorem ParamsSeeded.mono (hgrows : Grows b b') (h : ParamsSeeded b vs ps) : ParamsSeeded b' vs ps :=
  h.imp fun _ _ hp => ⟨hp.1, hgrows.value _ _ hp.2⟩

variable {seeded : List (ClBlock × List (LoweredValueId × Value))} {blks : List ClBlock}

theorem BlocksSeeded.mono (hgrows : Grows b b') (h : BlocksSeeded b blks seeded) : BlocksSeeded b' blks seeded :=
  h.imp fun _ _ hs => ⟨hs.1, hs.2.mono hgrows⟩

/-- Lowering the parameters of a block keeps their ids and gives them their types. -/
theorem lowerParams_spec {blk : ClBlock} {params : List (LoweredValueId × LoweredType)}
    (hseeded : ParamsSeeded b vs ps) (h : ps.mapM (lowerParam f blk) = .ok params) :
    List.Forall₂ (ParamLowers f b.maps) vs params ∧ params.map Prod.fst = ps.map Prod.fst := by
  induction hseeded generalizing params with
  | nil =>
    cases h
    exact ⟨.nil, rfl⟩
  | @cons v p vs ps hp _ ih =>
    rw [mapM_cons] at h
    obtain ⟨param, hparam, h⟩ := bind_eq_ok.mp h
    obtain ⟨rest, hrest, h⟩ := bind_eq_ok.mp h
    cases h
    obtain ⟨hrel, hids⟩ := ih hrest
    obtain ⟨rfl, hid⟩ := hp
    unfold lowerParam at hparam
    cases hty : craneliftTypeToLowered (f.valueType p.2) with
    | none =>
      rw [hty] at hparam
      cases hparam
    | some ty =>
      rw [hty] at hparam
      cases hparam
      exact ⟨.cons ⟨hid, hty⟩ hrel, congrArg (p.1 :: ·) hids⟩

theorem expectBlock_ok {block : Block} {message : String}
    {id : LoweredBlockId} (h : b.expectBlock block message = .ok id) : b.blockMap block = some id := by
  unfold LoweringBuilder.expectBlock at h
  cases hb : b.blockMap block with
  | none =>
    rw [hb] at h
    cases h
  | some id' =>
    rw [hb] at h
    cases h
    rfl

theorem BlockLowers.mono (hle : m.Le m') {blk : ClBlock} {lb : LoweredBlock}
    (h : BlockLowers f m before blk lb) : BlockLowers f m' before blk lb where
  id := hle.block _ _ h.id
  params := h.params.imp fun _ _ hp => ⟨hle.value _ _ hp.1, hp.2⟩
  insts := h.insts.mono hle

theorem Ahead.left {xs ys : List Inst} (h : Ahead f before (xs ++ ys)) : Ahead f before xs where
  listed i hi := h.listed i (mem_append_left _ hi)
  typed i hi := h.typed i (mem_append_left _ hi)
  fresh := by
    have hnodup := h.fresh
    rw [← append_assoc, flatMap_append, ← append_assoc] at hnodup
    exact hnodup.of_append_left

theorem Ahead.right {xs ys : List Inst} (h : Ahead f before (xs ++ ys)) : Ahead f (before ++ xs) ys where
  listed i hi := h.listed i (mem_append_right _ hi)
  typed i hi := h.typed i (mem_append_right _ hi)
  fresh := by
    rw [append_assoc]
    exact h.fresh

theorem lowerBlocks_spec {lbs : List LoweredBlock} (hw : Walked f before b)
    (hahead : Ahead f before (blks.flatMap (·.insts))) (hseeded : BlocksSeeded b blks seeded)
    (h : lowerBlocks f seeded b = .ok (lbs, b')) :
    BlocksLower f b'.maps before blks lbs ∧ Walked f (before ++ blks.flatMap (·.insts)) b' ∧
      Grows b b' ∧ Taken (lbs.flatMap fun lb => opResults lb.ops) b.nextValueId b'.nextValueId ∧
      lbs.flatMap (·.paramIds) = seeded.flatMap fun s => s.2.map Prod.fst := by
  induction blks generalizing seeded before b lbs with
  | nil =>
    cases hseeded
    cases h
    rw [flatMap_nil, append_nil]
    exact ⟨.nil, hw, .refl _, .nil (Nat.le_refl _), rfl⟩
  | cons blk blks ih =>
    cases hseeded with
    | @cons _ s _ rest hs hrest =>
      obtain ⟨blk', ps⟩ := s
      obtain ⟨rfl, hps⟩ := hs
      unfold lowerBlocks at h
      obtain ⟨blockId, hid, h⟩ := bind_eq_ok.mp h
      obtain ⟨params, hparams, h⟩ := bind_eq_ok.mp h
      obtain ⟨⟨ops, b₁⟩, hops, h⟩ := bind_eq_ok.mp h
      obtain ⟨⟨blocks, b₂⟩, hblocks, h⟩ := bind_eq_ok.mp h
      cases h
      rw [flatMap_cons] at hahead
      obtain ⟨hprel, hpids⟩ := lowerParams_spec hps hparams
      obtain ⟨hinsts, hw₁, hgrows₁, htaken₁⟩ := lowerInsts_spec hw hahead.left hops
      obtain ⟨hrel, hw₂, hgrows₂, htaken₂, hids⟩ :=
        ih hw₁ hahead.right (BlocksSeeded.mono hgrows₁ hrest) hblocks
      have hblock : BlockLowers f b₁.maps before blk' ⟨blockId, params, ops⟩ :=
        ⟨hgrows₁.le.block _ _ (expectBlock_ok hid), hprel.imp fun _ _ hp => ⟨hgrows₁.value _ _ hp.1, hp.2⟩, hinsts⟩
      refine ⟨.cons (hblock.mono hgrows₂.le) hrel, ?_, hgrows₁.trans hgrows₂, ?_, ?_⟩
      · rwa [flatMap_cons, ← append_assoc]
      · rw [flatMap_cons]
        exact htaken₁.append htaken₂
      · rw [flatMap_cons, flatMap_cons, hids]
        exact congrArg (· ++ _) hpids

/-! ## Ids for the blocks and their parameters -/

theorem allocBlocks_spec {blocks : List Block} (hnone : ∀ B ∈ blocks, b.blockMap B = none)
    (hnodup : blocks.Nodup) (h : blocks.foldlM LoweringBuilder.getOrAllocBlock b = .ok b') :
    b'.valueMap = b.valueMap ∧ b'.stackSlotMap = b.stackSlotMap ∧
      b'.nextValueId = b.nextValueId ∧ (∀ B, B ∉ blocks → b'.blockMap B = b.blockMap B) ∧
      ∀ k B, blocks[k]? = some B → b'.blockMap B = some (b.nextBlockId + k) := by
  induction blocks generalizing b with
  | nil =>
    cases h
    exact ⟨rfl, rfl, rfl, fun _ _ => rfl, fun k B hk => by cases hk⟩
  | cons B blocks ih =>
    rw [foldlM_cons] at h
    obtain ⟨b₁, hfirst, h⟩ := bind_eq_ok.mp h
    obtain ⟨hB, hrest⟩ := nodup_cons.mp hnodup
    unfold LoweringBuilder.getOrAllocBlock at hfirst
    rw [hnone B mem_cons_self] at hfirst
    cases hn : checkedSucc b.nextBlockId with
    | none =>
      simp only [hn] at hfirst
      cases hfirst
    | some next =>
      simp only [hn] at hfirst
      obtain rfl := checkedSucc_eq_some hn
      cases hfirst
      have hnone₁ : ∀ C ∈ blocks, Function.update b.blockMap B (some b.nextBlockId) C = none := by
        intro C hC
        have hne : C ≠ B := fun heq => hB (heq ▸ hC)
        rw [Function.update_of_ne hne]
        exact hnone C (mem_cons_of_mem _ hC)
      obtain ⟨hvalues, hslots, hnext, hothers, hids⟩ := ih hnone₁ hrest h
      refine ⟨hvalues, hslots, hnext, ?_, ?_⟩
      · intro C hC
        obtain ⟨hne, hmem⟩ := ne_and_not_mem_of_not_mem_cons hC
        rw [hothers C hmem]
        exact Function.update_of_ne hne _ _
      · intro k C hk
        cases k with
        | zero =>
          cases hk
          rw [hothers B hB]
          exact Function.update_self ..
        | succ k =>
          rw [hids k C hk, Nat.add_assoc, Nat.add_comm 1 k]

/-- The builder while parameters are seeded: `done` have their ids, and no slot has one. -/
structure Seeding (done : List Value) (b : LoweringBuilder) : Prop where
  values : ∀ v, (∃ d, b.valueMap v = some d) ↔ v ∈ done
  slots : ∀ s, b.stackSlotMap s = none
  numbered : Numbered b.maps.ids b.nextValueId

theorem getOrAllocValue_new {v : Value} {id : LoweredValueId} (hnone : b.valueMap v = none)
    (h : b.getOrAllocValue v = .ok (id, b')) : id = b.nextValueId ∧ b' = b.takeValue v := by
  unfold LoweringBuilder.getOrAllocValue at h
  rw [hnone] at h
  cases hn : checkedSucc b.nextValueId with
  | none =>
    simp only [hn] at h
    cases h
  | some next =>
    simp only [hn] at h
    obtain rfl := checkedSucc_eq_some hn
    cases h
    exact ⟨rfl, rfl⟩

variable {done : List Value}

theorem Seeding.none_of_not_mem (h : Seeding done b) {v : Value} (hv : v ∉ done) : b.valueMap v = none :=
  Option.eq_none_iff_forall_ne_some.mpr fun id hid => hv ((h.values v).mp ⟨id, hid⟩)

theorem Seeding.take (h : Seeding done b) (v : Value) : Seeding (done ++ [v]) (b.takeValue v) where
  values w := by
    rw [takeValue_values, h.values, mem_append, mem_singleton]
    exact Or.comm
  slots := h.slots
  numbered := by
    rw [takeValue_ids]
    exact h.numbered.bind _

theorem seedParams_spec (hs : Seeding done b) (hnodup : (done ++ vs).Nodup) (h : seedParams vs b = .ok (ps, b')) :
    ParamsSeeded b' vs ps ∧ Seeding (done ++ vs) b' ∧ Grows b b' ∧
      Taken (ps.map Prod.fst) b.nextValueId b'.nextValueId := by
  induction vs generalizing done b ps with
  | nil =>
    cases h
    rw [append_nil]
    exact ⟨.nil, hs, .refl _, .nil (Nat.le_refl _)⟩
  | cons v vs ih =>
    unfold seedParams at h
    obtain ⟨⟨id, b₁⟩, hid, h⟩ := bind_eq_ok.mp h
    obtain ⟨⟨rest, b₂⟩, hrest, h⟩ := bind_eq_ok.mp h
    cases h
    have hnone : b.valueMap v = none := by
      refine hs.none_of_not_mem fun hmem => ?_
      exact disjoint_of_nodup_append hnodup hmem mem_cons_self
    obtain ⟨rfl, rfl⟩ := getOrAllocValue_new hnone hid
    rw [append_cons] at hnodup
    obtain ⟨hps, hs', hgrows, htaken⟩ := ih (hs.take v) hnodup hrest
    refine ⟨.cons ⟨rfl, hgrows.value _ _ (takeValue_self b v)⟩ hps, ?_, (takeValue_grows hnone).trans hgrows, ?_⟩
    · rwa [append_cons]
    · exact (Taken.single (Nat.le_refl b.nextValueId)).append htaken

theorem seedBlocks_spec (hs : Seeding done b)
    (hnodup : (done ++ blks.flatMap (·.params)).Nodup) (h : seedBlocks blks b = .ok (seeded, b')) :
    BlocksSeeded b' blks seeded ∧ Seeding (done ++ blks.flatMap (·.params)) b' ∧ Grows b b' ∧
      Taken (seeded.flatMap fun s => s.2.map Prod.fst) b.nextValueId b'.nextValueId := by
  induction blks generalizing done b seeded with
  | nil =>
    cases h
    rw [flatMap_nil, append_nil]
    exact ⟨.nil, hs, .refl _, .nil (Nat.le_refl _)⟩
  | cons blk blks ih =>
    unfold seedBlocks at h
    obtain ⟨⟨ps, b₁⟩, hps, h⟩ := bind_eq_ok.mp h
    obtain ⟨⟨rest, b₂⟩, hrest, h⟩ := bind_eq_ok.mp h
    cases h
    rw [flatMap_cons, ← append_assoc] at hnodup
    obtain ⟨hparams, hs₁, hgrows₁, htaken₁⟩ := seedParams_spec hs hnodup.of_append_left hps
    obtain ⟨hblocks, hs₂, hgrows₂, htaken₂⟩ := ih hs₁ hnodup hrest
    refine ⟨.cons ⟨rfl, hparams.mono hgrows₂⟩ hblocks, ?_, hgrows₁.trans hgrows₂, ?_⟩
    · rwa [flatMap_cons, ← append_assoc]
    · rw [flatMap_cons]
      exact htaken₁.append htaken₂

/-! ## The function -/

/-- The lowered function is the image of the source under the maps, and no id is defined twice. -/
structure LoweredAs (f : Function) (L : LoweredFunction) (m : Maps) : Prop where
  accepted : checkFunction f = none
  signature : loweredSignature f = .ok L.signature
  nonempty : f.layout ≠ []
  entry : L.entry = 0
  blockIds : ∀ k blk, f.layout[k]? = some blk → m.block blk.block = some k
  blocks : BlocksLower f m [] f.layout L.blocks
  inj : ∀ k k' d, m.ids k = some d → m.ids k' = some d → k = k'
  defs_nodup : L.defs.Nodup

theorem Seeding.new : Seeding [] .new where
  values v := by simp [LoweringBuilder.new]
  slots _ := rfl
  numbered := by
    have hids : LoweringBuilder.new.maps.ids = fun _ => none := by
      funext k
      cases k <;> rfl
    rw [hids]
    exact .none

/-- Before the first instruction, the seeded parameters are all there is. -/
theorem Seeding.walked (h : Seeding f.params b) : Walked f [] b where
  values v := by
    rw [h.values, flatMap_nil, append_nil]
  slots s := by
    simp [h.slots s, touched]
  numbered := h.numbered

theorem mem_insts (hi : i ∈ f.insts) : ∃ (k : Nat) (blk : ClBlock), f.layout[k]? = some blk ∧ i ∈ blk.insts := by
  obtain ⟨blk, hblk, hi⟩ := mem_flatMap.mp hi
  obtain ⟨k, hk⟩ := mem_iff_getElem?.mp hblk
  exact ⟨k, blk, hk, hi⟩

theorem Verified.ahead (hv : Verified f) (hacc : checkFunction f = none) : Ahead f [] f.insts where
  listed i hi := by
    obtain ⟨k, blk, hk, hi⟩ := mem_insts hi
    exact (not_rejected hacc hk hi).1
  typed := hv.typed
  fresh := hv.defs_nodup

theorem loweredSignature_ok {sig : LoweredSignature} (h : loweredSignature f = .ok sig) :
    lowerSignature f.signature = .ok sig := by
  unfold loweredSignature at h
  cases hs : lowerSignature f.signature with
  | error e =>
    rw [hs] at h
    cases h
  | ok sig' =>
    rw [hs] at h
    cases h
    rfl

theorem lowerEntry_ok {entry : LoweredBlockId} (h : lowerEntry f b = .ok entry) :
    ∃ blk, f.layout[0]? = some blk ∧ b.blockMap blk.block = some entry := by
  unfold lowerEntry at h
  cases hhead : f.layout.head? with
  | none =>
    rw [hhead] at h
    cases h
  | some blk =>
    rw [hhead] at h
    rw [List.head?_eq_getElem?] at hhead
    exact ⟨blk, hhead, expectBlock_ok h⟩

/-- An accepted function lowers as `InstLowers` says, block by block. -/
theorem lowerFunction_spec {L : LoweredFunction} (hv : Verified f) (h : lowerFunction f = .ok L) :
    ∃ m, LoweredAs f L m := by
  unfold lowerFunction at h
  obtain ⟨sig, hsig, h⟩ := bind_eq_ok.mp h
  cases hacc : checkFunction f with
  | some r =>
    rw [hacc] at h
    cases h
  | none =>
    rw [hacc] at h
    obtain ⟨b₁, hblocks, h⟩ := bind_eq_ok.mp h
    obtain ⟨⟨seeded, b₂⟩, hseed, h⟩ := bind_eq_ok.mp h
    obtain ⟨⟨lbs, b₃⟩, hlower, h⟩ := bind_eq_ok.mp h
    obtain ⟨entry, hentry, h⟩ := bind_eq_ok.mp h
    cases h
    obtain ⟨hvalues, hslots, hnext, -, hids⟩ :=
      allocBlocks_spec (fun _ _ => rfl) hv.blocks_nodup hblocks
    have hstart : Seeding [] b₁ := by
      have hnew := Seeding.new
      refine ⟨?_, ?_, ?_⟩
      · rw [hvalues]
        exact hnew.values
      · rw [hslots]
        exact hnew.slots
      · rw [LoweringBuilder.maps, hvalues, hslots, hnext]
        exact hnew.numbered
    obtain ⟨hseeded, hs, hgrows₁, htaken₁⟩ :=
      seedBlocks_spec hstart hv.defs_nodup.of_append_left hseed
    obtain ⟨hrel, hwalked, hgrows₂, htaken₂, hparams⟩ :=
      lowerBlocks_spec hs.walked (hv.ahead hacc) hseeded hlower
    have hblockIds : ∀ k blk, f.layout[k]? = some blk → b₃.blockMap blk.block = some k := by
      intro k blk hk
      rw [hgrows₂.block, hgrows₁.block]
      have hid := hids k blk.block (by rw [List.getElem?_map, hk]; rfl)
      rwa [show LoweringBuilder.new.nextBlockId = 0 from rfl, Nat.zero_add] at hid
    obtain ⟨blk, hblk, hblkEntry⟩ := lowerEntry_ok hentry
    refine ⟨b₃.maps, hacc, hsig, ?_, ?_, hblockIds, hrel, hwalked.numbered.inj, ?_⟩
    · intro hnil
      rw [hnil] at hblk
      cases hblk
    · rw [hblockIds 0 blk hblk] at hblkEntry
      exact (Option.some.inj hblkEntry).symm
    · unfold LoweredFunction.defs
      rw [hparams]
      exact (htaken₁.append htaken₂).nodup

end TensorWasm.Clif
