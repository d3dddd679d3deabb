import TensorWasm.Proof.LowerSim

/-!
# Whole runs

A run is at a `Position`: a path of the control-flow graph from the entry, whose blocks have been run in
full, and a point in the current block. Dominance says that whatever an instruction reads was set on that
path. Branches go forward in the layout, so the number of instructions that stand behind the current
point falls with every step, and the two runs end together.
-/

namespace TensorWasm.Clif

open Lib StateTransition List

variable {f : Function} {L : LoweredFunction} {m : Maps} {M : Machine} {done : List Inst}
  {bound : List Value} {fr : Frame} {lfr : LoweredFrame}

/-! ## Entering a block -/

/-- The values passed to a block or returned. -/
theorem Related.readAll (h : Related f m M done bound fr lfr) {vs : List Value} {ids : List LoweredValueId}
    (hids : List.Forall₂ (fun v d => m.value v = some d) vs ids) (hbound : ∀ v ∈ vs, v ∈ bound) :
    ∃ values lvalues, vs.mapM fr.env = some values ∧ ids.mapM lfr.env = some lvalues ∧
      List.Forall₂ Represents lvalues values ∧
      values.map List.length = vs.map fun v => (f.valueType v).laneCount := by
  induction hids with
  | nil => exact ⟨[], [], rfl, rfl, .nil, rfl⟩
  | @cons v d vs ids hd _ ih =>
    obtain ⟨values, lvalues, hvalues, hlvalues, hreps, hlens⟩ :=
      ih fun w hw => hbound w (mem_cons_of_mem _ hw)
    obtain ⟨xs, u, hxs, hlen, hu, hrep⟩ := h.read (hbound v mem_cons_self) hd
    refine ⟨xs :: values, u :: lvalues, ?_, ?_, .cons hrep hreps, ?_⟩
    · simp [mapM_cons, hxs, hvalues]
    · simp [mapM_cons, hu, hlvalues]
    · rw [map_cons, map_cons, hlen, hlens]

theorem Related.bindAll (h : Related f m M done bound fr lfr) (hm : LoweredAs f L m) {vs : List Value}
    {ps : List (LoweredValueId × LoweredType)} (hparams : List.Forall₂ (ParamLowers f m) vs ps) {values : List Lanes}
    {lvalues : List LoweredVal} (hreps : List.Forall₂ Represents lvalues values)
    (hlens : values.map List.length = vs.map fun v => (f.valueType v).laneCount) :
    Related f m M done (bound ++ vs) (fr.bind vs values) (lfr.bind (ps.map Prod.fst) lvalues) := by
  induction hparams generalizing fr lfr bound values lvalues with
  | nil =>
    rw [append_nil]
    exact h
  | @cons v p vs ps hp _ ih =>
    cases hreps with
    | nil => cases hlens
    | cons hrep hreps =>
      obtain ⟨hlen, hlens⟩ := List.cons.inj hlens
      have hnext := ih (h.setValue hm hp.1 hlen hrep) hreps hlens
      rw [append_assoc] at hnext
      exact hnext

theorem find?_of_unique {α : Type} {l : List α} {p : α → Bool} {a : α} (ha : a ∈ l)
    (hpa : p a = true) (hunique : ∀ b ∈ l, p b = true → b = a) : l.find? p = some a := by
  obtain ⟨b, hb⟩ := Option.isSome_iff_exists.mp (List.find?_isSome.mpr ⟨a, ha, hpa⟩)
  rw [hb, hunique b (mem_of_find?_eq_some hb) (List.find?_some hb)]

variable {j : Nat}

theorem Verified.find_block (hv : Verified f) {blk : ClBlock} {B : Block} (hj : f.layout[j]? = some blk)
    (hB : blk.block = B) : f.layout.find? (·.block == B) = some blk := by
  refine find?_of_unique (mem_of_getElem? hj) (beq_iff_eq.mpr hB) fun other hother hname => ?_
  obtain ⟨k, hk⟩ := mem_iff_getElem?.mp hother
  obtain rfl := hv.index_unique hk hj ((beq_iff_eq.mp hname).trans hB.symm)
  exact Option.mem_unique hk hj

theorem LoweredAs.find_block (h : LoweredAs f L m) {lb : LoweredBlock}
    (hj : L.blocks[j]? = some lb) : L.blocks.find? (·.id == j) = some lb := by
  obtain ⟨-, -, hid, -⟩ := h.preimage hj
  refine find?_of_unique (mem_of_getElem? hj) (beq_iff_eq.mpr hid) fun other hother hname => ?_
  obtain ⟨k, hk⟩ := mem_iff_getElem?.mp hother
  obtain ⟨-, -, hkid, -⟩ := h.preimage hk
  obtain rfl := hkid.symm.trans (beq_iff_eq.mp hname)
  exact Option.mem_unique hk hj

variable {call : BlockCall} {target : LoweredBlockId}

/-- A branch binds the parameters of its target on both sides. -/
theorem Related.enter (h : Related f m M done bound fr lfr) (hv : Verified f) (hm : LoweredAs f L m)
    {args : List LoweredValueId} (htyped : f.CallTyped call) (htarget : m.block call.block = some target)
    (hargs : List.Forall₂ (fun v d => m.value v = some d) call.args args) (hbound : ∀ v ∈ call.args, v ∈ bound) :
    ∃ blk lb fr' lfr', f.layout[target]? = some blk ∧ blk.block = call.block ∧
      BlockLowers f m (LoweredAs.before f target) blk lb ∧ f.enter fr call = some (.running blk.insts fr') ∧
      L.enter lfr target args = some (.running lb.ops lfr') ∧
      Related f m M done (bound ++ blk.params) fr' lfr' := by
  obtain ⟨blk, hblk, hname, htypes⟩ := htyped
  obtain ⟨j, hj⟩ := mem_iff_getElem?.mp hblk
  have hjt : j = target := by
    have hid := hm.blockIds j blk hj
    rw [hname, htarget] at hid
    exact (Option.some.inj hid).symm
  subst hjt
  obtain ⟨lb, hlb, hid, hlow⟩ := hm.image hj
  obtain ⟨values, lvalues, hvalues, hlvalues, hreps, hlens⟩ := h.readAll hargs hbound
  have hsizes : values.map List.length = blk.params.map fun v => (f.valueType v).laneCount := by
    have hcounts := congrArg (List.map ClType.laneCount) htypes
    rw [map_map, map_map] at hcounts
    exact hlens.trans hcounts
  refine ⟨blk, lb, fr.bind blk.params values, lfr.bind lb.paramIds lvalues, hj, hname, hlow, ?_, ?_,
    h.bindAll hm hlow.params hreps hsizes⟩
  · simp [Function.enter, hv.find_block hj hname, hvalues]
  · simp [LoweredFunction.enter, hm.find_block hlb, hlvalues]

/-! ## Positions -/

/-- The run stands before `rest` in the `k`-th block, which it reached through the blocks `visited`. -/
structure Position (f : Function) (k : Nat) (blk : ClBlock) (visited : List ClBlock)
    (above rest : List Inst) : Prop where
  here : f.layout[k]? = some blk
  insts : blk.insts = above ++ rest
  body : ∀ i ∈ above, i.data.isTerminator = false
  earlier : ∀ b ∈ visited, ∃ j, j < k ∧ f.layout[j]? = some b
  path : ∀ entry ∈ f.layout.head?, Path f.Edge entry.block blk.block (visited.map (·.block) ++ [blk.block])

/-- The instructions the run has executed. -/
def executed (visited : List ClBlock) (above : List Inst) : List Inst :=
  visited.flatMap (·.insts) ++ above

/-- The values the run has set. -/
def assigned (blk : ClBlock) (visited : List ClBlock) (above : List Inst) : List Value :=
  visited.flatMap (·.defs) ++ (blk.params ++ above.flatMap (·.results))

namespace Position

variable {k : Nat} {blk : ClBlock} {visited : List ClBlock} {above rest : List Inst} {i : Inst}
  (h : Position f k blk visited above (i :: rest))

include h

theorem mem_insts : i ∈ f.insts := by
  refine mem_flatMap.mpr ⟨blk, mem_of_getElem? h.here, ?_⟩
  rw [h.insts]
  exact mem_append_right _ mem_cons_self

omit h in
theorem reachable (h : Position f k blk visited above rest) (hne : f.layout ≠ []) : f.Reachable blk.block := by
  obtain ⟨entry, tail, hlayout⟩ := exists_cons_of_ne_nil hne
  have hhead : entry ∈ f.layout.head? := by
    rw [hlayout]
    rfl
  exact ⟨entry, hhead, _, h.path entry hhead⟩

omit h in
/-- Another block that dominates the current one has been run. -/
theorem mem_visited (h : Position f k blk visited above rest) (hv : Verified f) (hne : f.layout ≠ [])
    {other : ClBlock} (hother : other ∈ f.layout) (hdom : f.Dominates other.block blk.block)
    (hdiff : other.block ≠ blk.block) : other ∈ visited := by
  obtain ⟨entry, tail, hlayout⟩ := exists_cons_of_ne_nil hne
  have hhead : entry ∈ f.layout.head? := by
    rw [hlayout]
    rfl
  have hmem := hdom entry hhead _ (h.path entry hhead)
  rcases mem_append.mp hmem with hmem | hmem
  · obtain ⟨b, hb, hname⟩ := mem_map.mp hmem
    obtain ⟨j, -, hj⟩ := h.earlier b hb
    obtain ⟨n, hn⟩ := mem_iff_getElem?.mp hother
    obtain rfl := hv.index_unique hj hn hname
    rw [hj] at hn
    cases hn
    exact hb
  · exact absurd (mem_singleton.mp hmem) hdiff

/-- Whatever the next instruction reads has been set. -/
theorem uses_assigned (hv : Verified f)
    (hne : f.layout ≠ []) : ∀ v ∈ i.data.uses, v ∈ assigned blk visited above := by
  intro v hvu
  have havail := hv.available blk (mem_of_getElem? h.here) above i rest h.insts v hvu
    (h.reachable hne)
  rcases havail with hparam | hresult | ⟨other, hother, hdiff, hdef, hdom⟩
  · exact mem_append_right _ (mem_append_left _ hparam)
  · exact mem_append_right _ (mem_append_right _ hresult)
  · exact mem_append_left _
      (mem_flatMap.mpr ⟨other, h.mem_visited hv hne hother hdom hdiff, hdef⟩)

/-- A slot has been accessed earlier in the layout exactly when it has been accessed in the run. -/
theorem touched_iff (hv : Verified f) (hne : f.layout ≠ [])
    (hslots : f.SlotsDominated) {slot : StackSlot} (hslot : i.data.slot? = some slot) :
    slot ∈ touched (LoweredAs.before f k ++ above) ↔ slot ∈ touched (executed visited above) := by
  rw [executed, touched_append, touched_append, mem_append, mem_append]
  refine or_congr_left' fun hnew => ⟨fun hbefore => ?_, fun hrun => ?_⟩
  · have haccess : slot ∈ touched blk.insts := by
      rw [h.insts, touched_append]
      exact mem_append_right _ (mem_filterMap.mpr ⟨i, mem_cons_self, hslot⟩)
    obtain ⟨j, first, hjk, hj, hfirst, hnot, hhead⟩ := first_accessor h.here haccess
    have hdom := hslots slot first.block hhead blk.block
      (mem_accessors (mem_of_getElem? h.here) haccess)
    have hdiff : first.block ≠ blk.block := by
      intro hsame
      obtain rfl := hv.index_unique hj h.here hsame
      exact hnot hbefore
    have hvisited := h.mem_visited hv hne (mem_of_getElem? hj) hdom hdiff
    obtain ⟨i', hi', hslot'⟩ := mem_filterMap.mp hfirst
    exact mem_filterMap.mpr ⟨i', mem_flatMap.mpr ⟨first, hvisited, hi'⟩, hslot'⟩
  · obtain ⟨i', hi', hslot'⟩ := mem_filterMap.mp hrun
    obtain ⟨b, hb, hib⟩ := mem_flatMap.mp hi'
    obtain ⟨j, hjk, hj⟩ := h.earlier b hb
    have htake : b ∈ f.layout.take k := by
      refine mem_of_getElem? (i := j) ?_
      rw [List.getElem?_take_of_lt hjk, hj]
    exact mem_filterMap.mpr ⟨i', mem_flatMap.mpr ⟨b, htake, hib⟩, hslot'⟩

theorem next (hterm : i.data.isTerminator = false) : Position f k blk visited (above ++ [i]) rest where
  here := h.here
  insts := by rw [h.insts, append_assoc, singleton_append]
  body j hj := by
    rcases mem_append.mp hj with hj | hj
    · exact h.body j hj
    · rw [mem_singleton.mp hj]
      exact hterm
  earlier := h.earlier
  path := h.path

end Position

/-! ## The end of a block -/

namespace Position

variable {k : Nat} {blk : ClBlock} {visited : List ClBlock} {above rest : List Inst} {i : Inst}

theorem rest_ne_nil (h : Position f k blk visited above rest) (hv : Verified f) : rest ≠ [] := by
  rintro rfl
  obtain ⟨body, last, hinsts, hlast, -⟩ := hv.terminated blk (mem_of_getElem? h.here)
  rw [h.insts, append_nil] at hinsts
  have hmid := h.body last (by rw [hinsts]; exact mem_append_right _ mem_cons_self)
  rw [hlast] at hmid
  cases hmid

/-- A terminator is the last instruction of its block. -/
theorem rest_eq_nil (h : Position f k blk visited above (i :: rest)) (hv : Verified f)
    (hterm : i.data.isTerminator = true) : rest = [] := by
  obtain ⟨body, last, hinsts, -, hbody⟩ := hv.terminated blk (mem_of_getElem? h.here)
  by_contra hne
  have hmem : i ∈ body := by
    have hdrop := congrArg List.dropLast (h.insts.symm.trans hinsts)
    rw [dropLast_concat, dropLast_append_of_ne_nil (cons_ne_nil i rest), dropLast_cons_of_ne_nil hne] at hdrop
    rw [← hdrop]
    exact mem_append_right _ mem_cons_self
  rw [hbody i hmem] at hterm
  cases hterm

/-- Accepted branches go forward in the layout. -/
theorem forward (h : Position f k blk visited above (i :: rest)) (hv : Verified f) (hacc : checkFunction f = none)
    (hcall : call ∈ i.data.branchDestination) {target : ClBlock} (hj : f.layout[j]? = some target)
    (hname : target.block = call.block) : k < j := by
  have hi : i ∈ blk.insts := by
    rw [h.insts]
    exact mem_append_right _ mem_cons_self
  have hsome : (f.layoutOrder call.block).isSome = true := by
    rw [Function.layoutOrder, List.findIdx?_isSome]
    exact any_eq_true.mpr ⟨target, mem_of_getElem? hj, beq_iff_eq.mpr hname⟩
  obtain ⟨n, hn⟩ := Option.isSome_iff_exists.mp hsome
  have hlt := (not_rejected hacc h.here hi).2 call hcall n hn
  obtain ⟨hbound, hfound, -⟩ := List.findIdx?_eq_some_iff_getElem.mp hn
  have hname' : f.layout[n].block = target.block := (beq_iff_eq.mp hfound).trans hname.symm
  obtain rfl := hv.index_unique (List.getElem?_eq_getElem hbound) hj hname'
  exact hlt

theorem branch (h : Position f k blk visited above [i])
    (hcall : call ∈ i.data.branchDestination) {target : ClBlock} (hlt : k < j)
    (hj : f.layout[j]? = some target) (hname : target.block = call.block) :
    Position f j target (visited ++ [blk]) [] target.insts where
  here := hj
  insts := rfl
  body _ hi := nomatch hi
  earlier b hb := by
    rcases mem_append.mp hb with hb | hb
    · obtain ⟨n, hn, hnb⟩ := h.earlier b hb
      exact ⟨n, hn.trans hlt, hnb⟩
    · rw [mem_singleton.mp hb]
      exact ⟨k, hlt, h.here⟩
  path entry hentry := by
    have hedge : f.Edge blk.block target.block := by
      refine ⟨blk, mem_of_getElem? h.here, rfl, i, ?_, call, hcall, hname.symm⟩
      rw [h.insts]
      exact mem_append_right _ mem_cons_self
    rw [map_append]
    exact .step (h.path entry hentry) hedge

end Position

/-- The instructions that stand behind the current point in the layout. -/
def remaining (f : Function) (k : Nat) (rest : List Inst) : Nat :=
  rest.length + ((f.layout.drop (k + 1)).flatMap (·.insts)).length

theorem remaining_next (f : Function) (k : Nat) (i : Inst) (rest : List Inst) :
    remaining f k rest < remaining f k (i :: rest) := by
  simp only [remaining, length_cons]
  omega

theorem remaining_branch {f : Function} {k : Nat} {target : ClBlock} (hlt : k < j) (hj : f.layout[j]? = some target)
    (i : Inst) : remaining f j target.insts < remaining f k [i] := by
  obtain ⟨hbound, htarget⟩ := List.getElem?_eq_some_iff.mp hj
  have hsplit : f.layout.drop (k + 1) = (f.layout.drop (k + 1)).take (j - (k + 1)) ++ f.layout.drop j := by
    have hdrop : f.layout.drop j = (f.layout.drop (k + 1)).drop (j - (k + 1)) := by
      rw [drop_drop, Nat.add_sub_cancel' hlt]
    rw [hdrop, take_append_drop]
  unfold remaining
  rw [hsplit, flatMap_append, length_append, drop_eq_getElem_cons hbound, htarget,
    flatMap_cons, length_append, length_singleton]
  omega

/-! ## Tables and returns -/

/-- A switch goes where the table says. -/
theorem CasesLower.find {table : List BlockCall} {cases : List (Nat × LoweredBlockId)} (h : CasesLower m table cases)
    {default : BlockCall} (hdefault : m.block default.block = some target)
    (hargs : default.args = []) {x : Nat} (hx : x < 2 ^ 32) :
    (table.getD x default).args = [] ∧ m.block (table.getD x default).block =
      some ((cases.find? (·.1 == x)).elim target Prod.snd) := by
  obtain ⟨hlen, hcases⟩ := h
  -- Below `x` no case has the value `x`.
  have hbelow : ∀ j c, j < x → cases[j]? = some c → (c.1 == x) = false := by
    intro j c hj hc
    have hjt : j < table.length := hlen ▸ (List.getElem?_eq_some_iff.mp hc).1
    obtain ⟨-, t, -, hcase⟩ := hcases j _ (List.getElem?_eq_getElem hjt)
    rw [hc] at hcase
    cases hcase
    rw [Nat.mod_eq_of_lt (hj.trans hx)]
    exact beq_false_of_ne (Nat.ne_of_lt hj)
  rw [getD_eq_getElem?_getD]
  cases htable : table[x]? with
  | some call =>
    obtain ⟨hcallArgs, t, ht, hcase⟩ := hcases x call htable
    rw [Nat.mod_eq_of_lt hx] at hcase
    obtain ⟨hxc, hget⟩ := List.getElem?_eq_some_iff.mp hcase
    have hfind : cases.find? (·.1 == x) = some (x, t) := by
      refine List.find?_eq_some_iff_getElem.mpr ⟨beq_self_eq_true x, x, hxc, hget, fun j hj => ?_⟩
      rw [hbelow j _ hj (List.getElem?_eq_getElem (hj.trans hxc))]
      rfl
    rw [hfind]
    exact ⟨hcallArgs, ht⟩
  | none =>
    have hfind : cases.find? (·.1 == x) = none := by
      refine List.find?_eq_none.mpr fun c hc => ?_
      obtain ⟨j, hj⟩ := mem_iff_getElem?.mp hc
      have hjx : j < x := by
        have hjlen := (List.getElem?_eq_some_iff.mp hj).1
        rw [hlen] at hjlen
        exact hjlen.trans_le (List.getElem?_eq_none_iff.mp htable)
      rw [hbelow j c hjx hj]
      exact Bool.false_ne_true
    rw [hfind]
    exact ⟨hargs, hdefault⟩

theorem laneCount_of_param {ty : ClType} {t : LoweredType} (h : craneliftTypeToLowered ty = some t) :
    t.laneCount = ty.laneCount := by
  cases ty with
  | scalar s => cases s <;> cases h <;> rfl
  | vector lane log2 =>
    cases hlane : lane.toLowered with
    | none =>
      simp only [craneliftTypeToLowered, hlane] at h
      cases h
    | some laneTy =>
      simp only [craneliftTypeToLowered, hlane] at h
      split at h
      · cases h
        rfl
      · cases h
  | dynamicVector lane log2 => cases h

/-- The lowered signature asks for the lanes that the source returns. -/
theorem lanes_of_returns {tys : List LoweredType} {values : List Lanes} {lvalues : List LoweredVal}
    (hreps : List.Forall₂ Represents lvalues values)
    (hlens : tys.map LoweredType.laneCount = values.map List.length) :
    (tys.zip lvalues).mapM (fun p => p.2.lanes p.1.laneCount) = some values := by
  induction hreps generalizing tys with
  | nil =>
    obtain rfl := map_eq_nil_iff.mp hlens
    rfl
  | @cons u xs lvalues values hrep _ ih =>
    cases tys with
    | nil => cases hlens
    | cons ty tys =>
      obtain ⟨hlen, hlens⟩ := List.cons.inj hlens
      simp [mapM_cons, hlen, hrep.lanes, ih hlens]

theorem LoweredAs.returns_laneCount (h : LoweredAs f L m) :
    L.signature.returns.map LoweredType.laneCount = f.signature.returns.map fun p => p.valueType.laneCount := by
  have hlowered := h.returns_lowered
  generalize f.signature.returns = ps, L.signature.returns = tys at hlowered
  induction hlowered with
  | nil => rfl
  | cons hty _ ih => rw [map_cons, map_cons, laneCount_of_param hty, ih]

/-! ## Both runs -/

/-- The two runs stand at the same point, with related frames, and no mask that the first run will
come to is a bad one. -/
structure InStep (f : Function) (m : Maps) (M : Machine) (k : Nat) (blk : ClBlock)
    (visited : List ClBlock) (above rest : List Inst) (ops : List LoweredOp) (fr : Frame)
    (lfr : LoweredFrame) : Prop where
  position : Position f k blk visited above rest
  lowers : InstsLower f m (LoweredAs.before f k ++ above) rest ops
  frames : Related f m M (executed visited above) (assigned blk visited above) fr lfr
  masks : ∀ c, Reaches (f.step M) (.running rest fr) c → f.MasksCover c

/-- Two configurations that are in step, with `n` instructions ahead. -/
def InStepAt (f : Function) (m : Maps) (M : Machine) (n : Nat) (c : Config) (lc : LoweredConfig) :
    Prop :=
  ∃ k blk visited above rest ops fr lfr, c = .running rest fr ∧ lc = .running ops lfr ∧
    InStep f m M k blk visited above rest ops fr lfr ∧ remaining f k rest = n

/-- Both runs have returned, with the same memory and the same values. -/
def BothReturned (c : Config) (lc : LoweredConfig) : Prop :=
  ∃ memory values, c = .returned memory values ∧ lc = .returned memory values

/-- What a step of the two runs leads to. -/
def Advances (f : Function) (L : LoweredFunction) (m : Maps) (M : Machine) (n : Nat) (c : Config)
    (lc : LoweredConfig) : Prop :=
  ∃ c' lc', Reaches (f.step M) c c' ∧ Reaches (L.step M) lc lc' ∧
    (BothReturned c' lc' ∨ ∃ n' < n, InStepAt f m M n' c' lc')

namespace InStep

variable {k : Nat} {blk : ClBlock} {visited : List ClBlock} {above rest : List Inst} {i : Inst}
  {ops : List LoweredOp} {args : List Value} {ids : List LoweredValueId}

/-- An instruction in the middle of the block. -/
theorem inst (h : InStep f m M k blk visited above (i :: rest) ops fr lfr) (hv : Verified f) (hm : LoweredAs f L m)
    (hslots : f.SlotsDominated) (hnative : NativeOrder M i.data) (hterm : i.data.isTerminator = false) :
    Advances f L m M (remaining f k (i :: rest)) (.running (i :: rest) fr) (.running ops lfr) := by
  obtain ⟨hpos, hlowers, hframes, hmasks⟩ := h
  cases hlowers with
  | cons hlow _ hrest =>
    obtain ⟨fr', lfr', hexec, hreach, hrel⟩ := hframes.runs hm hlow (hv.typed i hpos.mem_insts) hterm
      hnative (hpos.uses_assigned hv hm.nonempty)
      (fun slot hslot => hpos.touched_iff hv hm.nonempty hslots hslot) (hmasks _ .refl)
    have hstep := reaches_step (step_exec hterm hexec rest)
    refine ⟨_, _, hstep, hreach _, .inr ⟨_, remaining_next f k i rest, k, blk, visited, above ++ [i],
      rest, _, fr', lfr', rfl, rfl, ⟨hpos.next hterm, ?_, ?_, ?_⟩, rfl⟩⟩
    · rwa [append_assoc] at hrest
    · simp only [executed, assigned, flatMap_append, flatMap_singleton, append_assoc]
        at hrel ⊢
      exact hrel
    · exact fun c hc => hmasks c (hstep.trans hc)

/-- A branch that both runs take. -/
theorem branch (h : InStep f m M k blk visited above [i] ops fr lfr) (hv : Verified f) (hm : LoweredAs f L m)
    (hresults : i.results = []) (hslot : i.data.slot? = none)
    (hcall : call ∈ i.data.branchDestination) {args : List LoweredValueId}
    (htarget : m.block call.block = some target) (hargs : List.Forall₂ (fun v d => m.value v = some d) call.args args)
    (hstep : f.step M (.running [i] fr) = f.enter fr call)
    (hlstep : L.step M (.running ops lfr) = L.enter lfr target args) :
    Advances f L m M (remaining f k [i]) (.running [i] fr) (.running ops lfr) := by
  obtain ⟨hpos, -, hframes, hmasks⟩ := h
  have hbound : ∀ v ∈ call.args, v ∈ assigned blk visited above := fun v hva =>
    hpos.uses_assigned hv hm.nonempty v
      (mem_append_right _ (mem_flatMap.mpr ⟨call, hcall, hva⟩))
  obtain ⟨blk', lb, fr', lfr', hj, hname, hlow, henter, hlenter, hrel⟩ :=
    hframes.enter hv hm (hv.callTyped hpos.mem_insts hcall) htarget hargs hbound
  have hlt := hpos.forward hv hm.accepted hcall hj hname
  have hreach := reaches_step (hstep.trans henter)
  refine ⟨_, _, hreach, reaches_step (hlstep.trans hlenter), .inr ⟨_, remaining_branch hlt hj i, target,
    blk', visited ++ [blk], [], blk'.insts, lb.ops, fr', lfr', rfl, rfl,
    ⟨hpos.branch hcall hlt hj hname, ?_, ?_, ?_⟩, rfl⟩⟩
  · rw [append_nil]
    exact hlow.insts
  · -- The block is complete: the terminator sets no value and accesses no slot.
    refine hrel.weaken (fun slot => ?_) fun v hva => ?_
    · simp only [executed, flatMap_append, flatMap_singleton, append_nil, hpos.insts]
      rw [← append_assoc]
      exact touched_snoc hslot _ slot
    · simp only [assigned, ClBlock.defs, flatMap_append, flatMap_singleton,
        flatMap_nil, append_nil, hpos.insts, hresults] at hva ⊢
      exact hva
  · exact fun c hc => hmasks c (hreach.trans hc)

/-- A return. -/
theorem ret (h : InStep f m M k blk visited above [⟨.multiAryReturn args, []⟩] [.return ids] fr lfr) (hv : Verified f)
    (hm : LoweredAs f L m) (hids : List.Forall₂ (fun v d => m.value v = some d) args ids) (n : Nat) :
    Advances f L m M n (.running [⟨.multiAryReturn args, []⟩] fr) (.running [.return ids] lfr) := by
  obtain ⟨hpos, -, hframes, -⟩ := h
  obtain ⟨-, htypes⟩ := hv.typed _ hpos.mem_insts
  obtain ⟨values, lvalues, hvalues, hlvalues, hreps, hlens⟩ := hframes.readAll hids fun v hva =>
    hpos.uses_assigned hv hm.nonempty v (mem_append_left _ hva)
  have hcounts : L.signature.returns.map LoweredType.laneCount = values.map List.length := by
    have hmap := congrArg (List.map ClType.laneCount) htypes
    rw [map_map, map_map] at hmap
    rw [hm.returns_laneCount, hlens]
    exact hmap.symm
  refine ⟨.returned fr.memory values, .returned lfr.memory values, reaches_step ?_, reaches_step ?_,
    .inl ⟨fr.memory, values, rfl, by rw [hframes.memory]⟩⟩
  · simp [Function.step, hvalues]
  · simp [LoweredFunction.step, hlvalues, lanes_of_returns hreps hcounts]

theorem mem_destinations (table : List BlockCall) (default : BlockCall) (x : Nat) :
    table.getD x default ∈ default :: table := by
  rw [getD_eq_getElem?_getD]
  cases hx : table[x]? with
  | some call => exact mem_cons_of_mem _ (mem_of_getElem? hx)
  | none => exact mem_cons_self

/-- Every step keeps the runs in step, or ends both. -/
theorem advances (h : InStep f m M k blk visited above rest ops fr lfr) (hv : Verified f) (hm : LoweredAs f L m)
    (hslots : f.SlotsDominated) (hnative : ∀ i ∈ f.insts, NativeOrder M i.data) :
    Advances f L m M (remaining f k rest) (.running rest fr) (.running ops lfr) := by
  cases rest with
  | nil => exact absurd rfl (h.position.rest_ne_nil hv)
  | cons i rest =>
    have hi := h.position.mem_insts
    by_cases hterm : i.data.isTerminator = false
    · exact h.inst hv hm hslots (hnative i hi) hterm
    · have hlast := h.position.rest_eq_nil hv (Bool.eq_true_of_not_eq_false hterm)
      subst hlast
      have huses := h.position.uses_assigned hv hm.nonempty
      have htyped := hv.typed i hi
      obtain ⟨iops, hlow, rfl⟩ : ∃ iops, InstLowers f m (LoweredAs.before f k ++ above) i iops ∧ ops = iops := by
        cases h.lowers with
        | cons hlow _ hnil =>
          cases hnil
          exact ⟨_, hlow, append_nil _⟩
      cases hlow with
      | jump htarget hargs =>
        exact h.branch hv hm rfl rfl mem_cons_self htarget hargs rfl rfl
      | @brif c thenCall elseCall cond thenTarget elseTarget thenArgs elseArgs hc hthen helse
          hthenArgs helseArgs =>
        obtain ⟨-, hint, -⟩ := htyped
        obtain ⟨a, ha, hla⟩ := h.frames.scalar (huses c (mem_append_left _ mem_cons_self)) hc
          (laneCount_of_isScalarInt hint)
        by_cases hzero : a = 0
        · refine h.branch hv hm rfl rfl (mem_cons_of_mem _ mem_cons_self) helse helseArgs ?_ ?_
          · simp [Function.step, ha, hzero]
          · simp [LoweredFunction.step, hla, hzero]
        · refine h.branch hv hm rfl rfl mem_cons_self hthen hthenArgs ?_ ?_
          · simp [Function.step, ha, hzero]
          · simp [LoweredFunction.step, hla, hzero]
      | @brTable x default table value target cases hx hdefault hargs hcases =>
        obtain ⟨-, hint, -⟩ := htyped
        have hone : (f.valueType x).laneCount = 1 := by rw [hint]; rfl
        obtain ⟨a, ha, hla⟩ := h.frames.scalar
          (huses x (mem_append_left _ mem_cons_self)) hx hone
        obtain ⟨hnone, hblock⟩ :=
          hcases.find hdefault hargs (Nat.mod_lt a (Nat.two_pow_pos 32))
        have hno : List.Forall₂ (fun v d => m.value v = some d)
            (table.getD (a % 2 ^ 32) default).args [] := by
          rw [hnone]
          exact .nil
        refine h.branch hv hm rfl rfl (mem_destinations table default _) hblock hno ?_ ?_
        · simp [Function.step, ha]
        · simp [LoweredFunction.step, hla]
      | ret hargs => exact h.ret hv hm hargs _
      | arith _ _ _ _ _ | vMin _ _ _ _ | vMax _ _ _ _ | vSplat _ _ _ | vSelect _ _ _ _ _
      | select _ _ _ _ _ | bitcast _ _ _ _ | resize _ _ _ _ _ _ | load _ _ _ | store _ _ _
      | stackLoad _ _ _ | stackStore _ _ _ => exact absurd rfl hterm
      | @vTruth all _ _ _ _ _ _ _ => exact absurd rfl hterm

end InStep

/-! ## From the start to the end -/

/-- Before the arguments are bound. -/
theorem related_start (f : Function) (m : Maps) (M : Machine) (mem : Region) :
    Related f m M [] [] (.initial M mem) (.initial mem) where
  set _ hmem := nomatch hmem
  sized _ _ hxs := absurd hxs (Option.some_ne_none _).symm
  values _ _ _ hxs := absurd hxs (Option.some_ne_none _).symm
  memory := rfl
  allocated _ _ _ htouch := nomatch htouch
  untouched _ _ := rfl

/-- The two runs start in step. -/
theorem start_inStep (hv : Verified f) (hm : LoweredAs f L m) {args : List Lanes}
    (hargs : args.map List.length = f.signature.params.map fun p => p.valueType.laneCount) {memory : Region}
    (hmasks : ∀ c, f.Visits M args memory c → f.MasksCover c) :
    ∃ c lc n, f.start M args memory = some c ∧ L.start args memory = some lc ∧ InStepAt f m M n c lc := by
  obtain ⟨entry, tail, hlayout⟩ := exists_cons_of_ne_nil hm.nonempty
  have hhead : f.layout.head? = some entry := by rw [hlayout]; rfl
  have hzero : f.layout[0]? = some entry := by rw [hlayout]; rfl
  obtain ⟨lb, hlb, -, hlow⟩ := hm.image hzero
  have hreps : List.Forall₂ Represents (args.map LoweredVal.ofLanes) args := by
    rw [forall₂_map_left_iff]
    exact forall₂_same.mpr fun xs _ => represents_ofLanes xs
  have hlens : args.map List.length = entry.params.map fun v => (f.valueType v).laneCount := by
    have htypes := congrArg (List.map ClType.laneCount) (hv.entry_params entry hhead)
    rw [map_map, map_map] at htypes
    exact hargs.trans htypes.symm
  have hrel := (related_start f m M memory).bindAll hm hlow.params hreps hlens
  have hstart : f.start M args memory = some (.running entry.insts
      ((Frame.initial M memory).bind entry.params args)) := by
    simp [Function.start, hhead]
  have hlstart : L.start args memory = some (.running lb.ops
      ((LoweredFrame.initial memory).bind lb.paramIds (args.map .ofLanes))) := by
    simp [LoweredFunction.start, hm.entry, hm.find_block hlb]
  refine ⟨_, _, _, hstart, hlstart, 0, entry, [], [], entry.insts, lb.ops, _, _, rfl, rfl,
    ⟨⟨hzero, rfl, fun _ hmem => (nomatch hmem), fun _ hmem => (nomatch hmem), ?_⟩, ?_, ?_, ?_⟩, rfl⟩
  · intro entry' hentry'
    obtain rfl := Option.mem_unique hhead hentry'
    exact .start
  · exact hlow.insts
  · refine hrel.weaken (fun slot => Iff.rfl) fun v hmem => ?_
    simpa [assigned] using hmem
  · exact fun c hc => hmasks c ⟨_, hstart, hc⟩

/-- Both runs end, in one result, if the accesses are native-endian, the first access of every slot
dominates the others, and every mask the run comes to covers the bits that matter. -/
theorem lowering_preserves {f : Function} {L : LoweredFunction} {M : Machine} (hv : Verified f)
    (h : lowerFunction f = .ok L) (hnative : ∀ i ∈ f.insts, NativeOrder M i.data)
    (hslots : f.SlotsDominated) {args : List Lanes}
    (hargs : args.map List.length = f.signature.params.map fun p => p.valueType.laneCount)
    {memory : Region} (hmasks : ∀ c, f.Visits M args memory c → f.MasksCover c) :
    ∃ result, (∀ r, f.Returns M args memory r ↔ r = result) ∧ ∀ r, L.Returns M args memory r ↔ r = result := by
  obtain ⟨m, hm⟩ := lowerFunction_spec hv h
  obtain ⟨c, lc, n, hstart, hlstart, hin⟩ := start_inStep hv hm hargs hmasks
  have hstep : ∀ n c lc, InStepAt f m M n c lc → Advances f L m M n c lc := by
    rintro n c lc ⟨k, blk, visited, above, rest, ops, fr, lfr, rfl, rfl, hin, rfl⟩
    exact hin.advances hv hm hslots hnative
  obtain ⟨c', lc', hreach, hlreach, mem', values, rfl, rfl⟩ := simulates_to_end hstep n hin
  refine ⟨(mem', values), fun r => ⟨?_, ?_⟩, fun r => ⟨?_, ?_⟩⟩
  · rintro ⟨c₀, hc₀, hr⟩
    obtain rfl := Option.mem_unique hstart hc₀
    cases reaches_end_unique hr rfl hreach rfl
    rfl
  · rintro rfl
    exact ⟨c, hstart, hreach⟩
  · rintro ⟨c₀, hc₀, hr⟩
    obtain rfl := Option.mem_unique hlstart hc₀
    cases reaches_end_unique hr rfl hlreach rfl
    rfl
  · rintro rfl
    exact ⟨lc, hlstart, hlreach⟩

/-! ## Two functions -/

/-- `block0(v0, v1, v2: i32x4): v3 = bitselect v0, v1, v2; return v3`. -/
def maskBlend : Function where
  name := .testcase "mask_blend"
  signature := ⟨List.replicate 3 ⟨.vector .i32 1, .normal⟩, [⟨.vector .i32 1, .normal⟩], .systemV⟩
  layout := [⟨0, [0, 1, 2], [⟨.ternary .bitselect 0 1 2, [3]⟩, ⟨.multiAryReturn [3], []⟩]⟩]
  valueType _ := .vector .i32 1
  stackSlotSize _ := 0

def maskBlendLowered : LoweredFunction where
  name := "mask_blend"
  signature := ⟨List.replicate 3 (.v128 .i32 4), [.v128 .i32 4]⟩
  blocks := [⟨0, [(0, .v128 .i32 4), (1, .v128 .i32 4), (2, .v128 .i32 4)], [.vSelect .i32 0 1 2 3, .return [3]]⟩]
  entry := 0

theorem lowerFunction_maskBlend : lowerFunction maskBlend = .ok maskBlendLowered := by
  rfl

theorem verified_maskBlend : Verified maskBlend where
  blocks_nodup := by decide
  defs_nodup := by decide
  terminated := by
    intro blk hblk
    obtain rfl := mem_singleton.mp hblk
    exact ⟨[_], _, rfl, rfl, by decide⟩
  entry_params := by
    intro blk hblk
    cases hblk
    rfl
  typed := by
    intro i hi
    simp only [Function.insts, maskBlend, flatMap_cons, flatMap_nil, append_nil,
      mem_cons, not_mem_nil, or_false] at hi
    rcases hi with rfl | rfl
    · exact ⟨3, rfl, rfl, rfl, rfl⟩
    · exact ⟨rfl, rfl⟩
  available blk hblk above i below hinsts v hv _ :=
    available_of_locallyScoped rfl (by decide) hblk hinsts hv

def device : Machine := ⟨64, .little, fun _ => 0⟩

def zeroMemory : Region := fun _ => 0

/-- A mask lane with one bit chooses that bit in the source and the whole lane in the lowered function.
And where the first access of a slot stands in the branch that is not taken, the lowered run stops at a
pointer without a value. -/
theorem lowering_differs :
    (Verified maskBlend ∧ lowerFunction maskBlend = .ok maskBlendLowered ∧
      maskBlend.Returns device [[1, 0, 0, 0], [2, 0, 0, 0], [0, 0, 0, 0]] zeroMemory
        (zeroMemory, [[0, 0, 0, 0]]) ∧
      maskBlendLowered.Returns device [[1, 0, 0, 0], [2, 0, 0, 0], [0, 0, 0, 0]] zeroMemory
        (zeroMemory, [[2, 0, 0, 0]])) ∧
    Verified branchAssign ∧ lowerFunction branchAssign = .ok branchAssignLowered ∧
      branchAssign.Returns device [[0]] zeroMemory (zeroMemory, [[0]]) ∧
      ∀ r, ¬ branchAssignLowered.Returns device [[0]] zeroMemory r := by
  refine ⟨⟨verified_maskBlend, lowerFunction_maskBlend, ?_, ?_⟩, verified_branchAssign,
    lowerFunction_branchAssign, ?_, ?_⟩
  · exact ⟨_, rfl, reaches_stepN (n := 2) rfl⟩
  · exact ⟨_, rfl, reaches_stepN (n := 2) rfl⟩
  · exact ⟨_, rfl, reaches_stepN (n := 5) rfl⟩
  · rintro r ⟨c, hstart, hreach⟩
    cases hstart
    -- After the branch the store finds no pointer.
    rcases reaches_head hreach with hsame | ⟨c₁, hc₁, hrest⟩
    · cases hsame
    · cases hc₁
      rcases reaches_head hrest with hsame | ⟨c₂, hc₂, -⟩
      · cases hsame
      · have hstuck : none = some c₂ := hc₂
        cases hstuck

/-- With masks of all or no bits the two runs agree. -/
theorem lowering_preserves_maskBlend :
    (Verified maskBlend ∧ lowerFunction maskBlend = .ok maskBlendLowered ∧ maskBlend.SlotsDominated) ∧
    ∃ result,
      (∀ r, maskBlend.Returns device [[4294967295, 0, 0, 0], [2, 0, 0, 0], [0, 3, 0, 0]] zeroMemory r ↔
        r = result) ∧
      ∀ r, maskBlendLowered.Returns device [[4294967295, 0, 0, 0], [2, 0, 0, 0], [0, 3, 0, 0]]
        zeroMemory r ↔ r = result := by
  have hslots : maskBlend.SlotsDominated := by
    intro slot first hfirst
    cases hfirst
  refine ⟨⟨verified_maskBlend, lowerFunction_maskBlend, hslots⟩, ?_⟩
  refine lowering_preserves verified_maskBlend lowerFunction_maskBlend ?_ hslots rfl ?_
  · intro i hi
    simp only [Function.insts, maskBlend, flatMap_cons, flatMap_nil, append_nil,
      mem_cons, not_mem_nil, or_false] at hi
    rcases hi with rfl | rfl <;> trivial
  · rintro c ⟨c₀, hstart, hreach⟩
    cases hstart
    rcases reaches_head hreach with rfl | ⟨c₁, hc₁, hrest⟩
    · intro cs xs ys hcs hxs hys k a b e ha hb he
      cases hcs
      cases hxs
      cases hys
      have hk : k < 4 := (List.getElem?_eq_some_iff.mp ha).1
      interval_cases k <;> cases ha <;> cases hb <;> cases he <;> decide
    · cases hc₁
      rcases reaches_head hrest with rfl | ⟨c₂, hc₂, hend⟩
      · trivial
      · cases hc₂
        rcases reaches_head hend with rfl | ⟨c₃, hc₃, -⟩
        · trivial
        · have hstop : none = some c₃ := hc₃
          cases hstop

end TensorWasm.Clif
