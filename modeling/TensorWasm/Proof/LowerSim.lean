import TensorWasm.Clif.Semantics
import TensorWasm.Proof.LowerTypes

/-!
# The lowered function computes what the source computes

`Represents` relates lanes to lowered values and `Related` relates the frames of the two runs. One
instruction keeps the frames related, and a branch does; as branches of an accepted function go forward,
the runs end, with the same memory and the same values. Two conditions are needed. The first access of a
slot must dominate the others, or a run reads a pointer that was never set. And the mask of a `bitselect`
must in every lane be zero or cover the bits in which the two values differ, as `VSelect` chooses whole
lanes.
-/

open Function (update update_of_ne update_self)

namespace TensorWasm.Clif

open Lib StateTransition
open List (mem_cons_self)
open Option (bind_eq_bind bind_some map_some orElse_eq_none pure_def)

/-! ## Lanes -/

section Keys

variable {α β : Type} [LinearOrder β] {key : α → β}

/-- By keys, it does not matter which of two equal values is taken. -/
theorem ite_key_le (hkey : Function.Injective key) {x y a b : α} (heq : x = y → a = b) :
    (if key x ≤ key y then a else b) = if key x < key y then a else b := by
  rcases lt_trichotomy (key x) (key y) with hlt | hxy | hgt
  · rw [if_pos hlt.le, if_pos hlt]
  · rw [heq (hkey hxy), ite_self, ite_self]
  · rw [if_neg hgt.not_ge, if_neg hgt.le.not_gt]

end Keys

/-- The order of a comparison is the one of the numbers that the lanes stand for. -/
theorem ite_laneLt {w : Nat} {x y a b : BitVec w} (heq : x = y → a = b) :
    (if x.toInt ≤ y.toInt then a else b) = (if laneLt true x y then a else b) ∧
      (if x.toNat ≤ y.toNat then a else b) = if laneLt false x y then a else b := by
  simp only [laneLt, BitVec.slt_iff_toInt_lt, BitVec.ult_iff_lt, BitVec.lt_def, if_true, if_false, Bool.false_eq_true]
  exact ⟨ite_key_le (fun _ _ => BitVec.eq_of_toInt_eq) heq, ite_key_le (fun _ _ => BitVec.eq_of_toNat_eq) heq⟩

theorem lane_minOpcode (w : Nat) (signed : Bool) : (minOpcode signed).lane w = some (laneMin signed) := by
  cases signed with
  | true => exact congrArg some (funext₂ fun x y => (ite_laneLt id).1)
  | false => exact congrArg some (funext₂ fun x y => (ite_laneLt id).2)

theorem lane_maxOpcode (w : Nat) (signed : Bool) : (maxOpcode signed).lane w = some (laneMax signed) := by
  cases signed with
  | true => exact congrArg some (funext₂ fun x y => (ite_laneLt Eq.symm).1)
  | false => exact congrArg some (funext₂ fun x y => (ite_laneLt Eq.symm).2)

theorem lane_wrappingKind {op : BinaryOpcode} {kind : ArithKind} (h : wrappingKind op = some kind)
    (w : Nat) : op.lane w = kind.lane w ∧ ∃ lane, kind.lane w = some lane := by
  unfold wrappingKind at h
  split at h <;> cases h <;> exact ⟨rfl, _, rfl⟩

/-- The mask is zero, or it covers the bits in which the two values differ. -/
def MaskCovers {w : Nat} (c x y : BitVec w) : Prop := c = 0 ∨ (x ^^^ y) &&& ~~~c = 0

instance {w : Nat} (c x y : BitVec w) : Decidable (MaskCovers c x y) :=
  inferInstanceAs (Decidable (_ ∨ _))

/-- Choosing by lanes is choosing by bits for such masks only. -/
theorem bitselect_eq_laneSelect_iff {w : Nat} (c x y : BitVec w) :
    bitselect c x y = laneSelect c x y ↔ MaskCovers c x y := by
  unfold bitselect laneSelect MaskCovers
  by_cases hc : c = 0
  · simp [hc]
  · rw [if_pos hc]
    simp only [hc, false_or]
    -- Bit by bit: where the mask is clear, the two values agree.
    rw [BitVec.eq_of_getLsbD_eq_iff, BitVec.eq_of_getLsbD_eq_iff]
    refine forall₂_congr fun k hk => ?_
    simp only [BitVec.getLsbD_or, BitVec.getLsbD_and, BitVec.getLsbD_xor, BitVec.getLsbD_not, hk]
    cases c.getLsbD k <;> cases x.getLsbD k <;> cases y.getLsbD k <;> simp

/-! ## Values -/

/-- The lowered value has the given lanes. A value with an open count is the same in every lane. -/
structure LanesAgree (count : Option Nat) (lane : Nat → Nat) (xs : Lanes) : Prop where
  length_eq : ∀ n ∈ count, n = xs.length
  uniform : count = none → ∀ k, lane k = lane 0
  lanes : ∀ k x, xs[k]? = some x → lane k = x

def Represents : LoweredVal → Lanes → Prop
  | .data count lane, xs => LanesAgree count lane xs
  | .pointer _, _ => False

theorem represents_ofLanes (xs : Lanes) : Represents (.ofLanes xs) xs where
  length_eq _ hn := (Option.mem_some_iff.mp hn).symm
  uniform h := nomatch h
  lanes _ _ hx := by rw [List.getD_eq_getElem?_getD, hx, Option.getD_some]

theorem represents_ofScalar (a : Nat) : Represents (.ofScalar a) [a] where
  length_eq _ hn := (Option.mem_some_iff.mp hn).symm
  uniform h := nomatch h
  lanes _ _ hx := List.mem_singleton.mp (List.mem_of_getElem? hx) |>.symm

theorem represents_splat (a n : Nat) : Represents (.data none fun _ => a) (List.replicate n a) where
  length_eq _ hn := nomatch hn
  uniform _ _ := rfl
  lanes _ _ hx := (List.eq_of_mem_replicate (List.mem_of_getElem? hx)).symm

variable {v : LoweredVal}

/-- The one lane of a scalar. -/
theorem Represents.scalar {a : Nat} (h : Represents v [a]) : ∃ count lane, v = .data count lane ∧ lane 0 = a := by
  cases v with
  | data count lane => exact ⟨count, lane, rfl, h.lanes 0 a rfl⟩
  | pointer p => exact h.elim

variable {xs : Lanes} {ys : Lanes}

theorem LanesAgree.or_count {n n' : Option Nat} {x y : Nat → Nat} {zs : Lanes}
    (hx : LanesAgree n x xs) (hy : LanesAgree n' y ys) (hxs : xs.length = zs.length)
    (hys : ys.length = zs.length) : ∀ c ∈ (n <|> n'), c = zs.length := by
  intro c hc
  cases n with
  | none => rw [hy.length_eq c hc, hys]
  | some k => rw [hx.length_eq c hc, hxs]

variable {u : LoweredVal}

theorem Represents.zipWith (hv : Represents v xs) (hu : Represents u ys) (hlen : xs.length = ys.length)
    (op : Nat → Nat → Nat) : ∃ r, v.zipWith op u = some r ∧ Represents r (List.zipWith op xs ys) := by
  cases v with
  | pointer p => exact hv.elim
  | data n x =>
    cases u with
    | pointer p => exact hu.elim
    | data n' y =>
      have hx : LanesAgree n x xs := hv
      have hy : LanesAgree n' y ys := hu
      refine ⟨_, rfl, ?_, ?_, ?_⟩
      · exact hx.or_count hy (by simp [hlen]) (by simp [hlen])
      · intro hnone k
        obtain ⟨hn, hn'⟩ := (orElse_eq_none _ _).mp hnone
        rw [hx.uniform hn k, hy.uniform hn' k]
      · intro k r hr
        obtain ⟨a, b, ha, hb, rfl⟩ := List.getElem?_zipWith_eq_some.mp hr
        rw [hx.lanes k a ha, hy.lanes k b hb]

theorem length_zipWith3 (op : Nat → Nat → Nat → Nat) {cs : Lanes} (hcx : cs.length = xs.length)
    (hxy : xs.length = ys.length) : (List.zipWith3 op cs xs ys).length = ys.length := by
  induction cs generalizing xs ys with
  | nil =>
    obtain rfl := List.length_eq_zero_iff.mp hcx.symm
    exact hxy
  | cons c cs ih =>
    cases xs with
    | nil => cases hcx
    | cons x xs =>
      cases ys with
      | nil => cases hxy
      | cons y ys =>
        exact congrArg (· + 1) (ih (Nat.succ.inj hcx) (Nat.succ.inj hxy))

theorem getElem?_zipWith3 {op : Nat → Nat → Nat → Nat} {cs : Lanes} {k r : Nat}
    (h : (List.zipWith3 op cs xs ys)[k]? = some r) :
    ∃ c x y, cs[k]? = some c ∧ xs[k]? = some x ∧ ys[k]? = some y ∧ r = op c x y := by
  induction cs generalizing xs ys k with
  | nil => cases h
  | cons c cs ih =>
    cases xs with
    | nil => cases h
    | cons x xs =>
      cases ys with
      | nil => cases h
      | cons y ys =>
        cases k with
        | zero =>
          cases h
          exact ⟨c, x, y, rfl, rfl, rfl, rfl⟩
        | succ k => exact ih h

/-- The two operations need to agree on the lanes that are there. -/
theorem Represents.zipWith3 {w : LoweredVal} {cs : Lanes} (hv : Represents v cs) (hu : Represents u xs)
    (hw : Represents w ys) (hcx : cs.length = xs.length) (hxy : xs.length = ys.length)
    {op op' : Nat → Nat → Nat → Nat}
    (hop : ∀ (k c x y : Nat), cs[k]? = some c → xs[k]? = some x → ys[k]? = some y → op' c x y = op c x y) :
    ∃ r, v.zipWith3 op' u w = some r ∧ Represents r (List.zipWith3 op cs xs ys) := by
  have hlen := length_zipWith3 op hcx hxy
  cases v with
  | pointer p => exact hv.elim
  | data n c =>
    cases u with
    | pointer p => exact hu.elim
    | data n' x =>
      cases w with
      | pointer p => exact hw.elim
      | data n'' y =>
        have hc : LanesAgree n c cs := hv
        have hx : LanesAgree n' x xs := hu
        have hy : LanesAgree n'' y ys := hw
        refine ⟨_, rfl, ?_, ?_, ?_⟩
        · intro a ha
          cases n with
          | some k => rw [hc.length_eq a ha, hlen, hcx, hxy]
          | none => exact hx.or_count hy (by rw [hlen, hxy]) hlen.symm a ha
        · intro hnone k
          obtain ⟨hn, hrest⟩ := (orElse_eq_none _ _).mp hnone
          obtain ⟨hn', hn''⟩ := (orElse_eq_none _ _).mp hrest
          rw [hc.uniform hn k, hx.uniform hn' k, hy.uniform hn'' k]
        · intro k r hr
          obtain ⟨a, b, e, ha, hb, he, rfl⟩ := getElem?_zipWith3 hr
          rw [hc.lanes k a ha, hx.lanes k b hb, hy.lanes k e he, hop k a b e ha hb he]

theorem LanesAgree.map_range {count : Option Nat} {lane : Nat → Nat}
    (h : LanesAgree count lane xs) : (List.range xs.length).map lane = xs := by
  apply List.ext_getElem
  · simp
  · intro k hk hk'
    rw [List.getElem_map, List.getElem_range]
    exact h.lanes k _ (List.getElem?_eq_getElem hk')

theorem Represents.lanes (h : Represents v xs) : v.lanes xs.length = some xs := by
  cases v with
  | pointer p => exact h.elim
  | data count lane => exact congrArg some (LanesAgree.map_range h)

/-- A reduction over an open count sees one lane, and the others are like it. -/
theorem Represents.reduced (h : Represents v xs) (hne : xs ≠ [])
    (p : Nat → Bool) : ∃ ys, v.reduced = some ys ∧ ys.all p = xs.all p ∧ ys.any p = xs.any p := by
  cases v with
  | pointer p => exact h.elim
  | data count lane =>
    have hagree : LanesAgree count lane xs := h
    cases count with
    | some n =>
      obtain rfl := hagree.length_eq n rfl
      exact ⟨xs, congrArg some hagree.map_range, rfl, rfl⟩
    | none =>
      have hxs : xs = List.replicate xs.length (lane 0) := by
        refine List.eq_replicate_iff.mpr ⟨rfl, fun x hx => ?_⟩
        obtain ⟨k, hk⟩ := List.mem_iff_getElem?.mp hx
        rw [← hagree.lanes k x hk, hagree.uniform rfl k]
      refine ⟨[lane 0], rfl, ?_, ?_⟩
      · rw [hxs, List.all_replicate, if_neg (by simpa using hne)]
        simp
      · rw [hxs, List.any_replicate, if_neg (by simpa using hne)]
        simp

/-! ## Frames -/

/-- The frames of the two runs after the instructions `done`, with the values `bound` set. A slot that
was accessed has an allocation with the same bytes, and the others hold what they started with. -/
structure Related (f : Function) (m : Maps) (M : Machine) (done : List Inst) (bound : List Value)
    (fr : Frame) (lfr : LoweredFrame) : Prop where
  set : ∀ v ∈ bound, ∃ xs, fr.env v = some xs
  sized : ∀ v xs, fr.env v = some xs → xs.length = (f.valueType v).laneCount
  values : ∀ v xs d, fr.env v = some xs → m.value v = some d → ∃ u, lfr.env d = some u ∧ Represents u xs
  memory : lfr.memory = fr.memory
  allocated : ∀ slot p, m.slot slot = some p → slot ∈ touched done →
    lfr.env p = some (.pointer p) ∧ lfr.objects p = fr.slots slot
  untouched : ∀ slot, slot ∉ touched done → fr.slots slot = M.stackBytes

section Frames

variable {f : Function} {L : LoweredFunction} {m : Maps} {M : Machine} {done : List Inst}
  {bound : List Value} {fr : Frame} {lfr : LoweredFrame}

variable {d : LoweredValueId} {v : Value}

theorem Frame.scalar_of_env {a : Nat} (h : fr.env v = some [a]) : fr.scalar v = some a := by
  simp only [Frame.scalar, h]

theorem LoweredFrame.scalar_of_env {count : Option Nat} {lane : Nat → Nat} {a : Nat}
    (h : lfr.env d = some (.data count lane)) (ha : lane 0 = a) : lfr.scalar d = some a := by
  simp only [LoweredFrame.scalar, h, ha]

variable (h : Related f m M done bound fr lfr)

include h

theorem Related.weaken {done' : List Inst}
    {bound' : List Value} (hdone : ∀ slot, slot ∈ touched done' ↔ slot ∈ touched done)
    (hbound : ∀ v ∈ bound', v ∈ bound) : Related f m M done' bound' fr lfr where
  set v hv := h.set v (hbound v hv)
  sized := h.sized
  values := h.values
  memory := h.memory
  allocated slot p hp htouch := h.allocated slot p hp ((hdone slot).mp htouch)
  untouched slot hnot := h.untouched slot fun htouch => hnot ((hdone slot).mpr htouch)

theorem Related.read (hv : v ∈ bound) (hd : m.value v = some d) :
    ∃ xs u, fr.env v = some xs ∧ xs.length = (f.valueType v).laneCount ∧ lfr.env d = some u ∧ Represents u xs := by
  obtain ⟨xs, hxs⟩ := h.set v hv
  obtain ⟨u, hu, hrep⟩ := h.values v xs d hxs hd
  exact ⟨xs, u, hxs, h.sized v xs hxs, hu, hrep⟩

theorem Related.readScalar (hv : v ∈ bound) (hd : m.value v = some d) (hone : (f.valueType v).laneCount = 1) :
    ∃ a count lane, fr.env v = some [a] ∧ lfr.env d = some (.data count lane) ∧ lane 0 = a := by
  obtain ⟨xs, u, hxs, hlen, hu, hrep⟩ := h.read hv hd
  rw [hone] at hlen
  obtain ⟨a, rfl⟩ := List.length_eq_one_iff.mp hlen
  obtain ⟨count, lane, rfl, hlane⟩ := hrep.scalar
  exact ⟨a, count, lane, hxs, hu, hlane⟩

theorem Related.scalar (hv : v ∈ bound) (hd : m.value v = some d)
    (hone : (f.valueType v).laneCount = 1) : ∃ a, fr.scalar v = some a ∧ lfr.scalar d = some a := by
  obtain ⟨a, count, lane, henv, hlenv, hlane⟩ := h.readScalar hv hd hone
  exact ⟨a, Frame.scalar_of_env henv, LoweredFrame.scalar_of_env hlenv hlane⟩

/-- A value is set on both sides. The ids of other values and of pointers are different ones. -/
theorem Related.setValue (hm : LoweredAs f L m) (hd : m.value v = some d) (hlen : xs.length = (f.valueType v).laneCount)
    (hu : Represents u xs) : Related f m M done (bound ++ [v]) (fr.set v xs) (lfr.set d u) where
  set w hw := by
    by_cases hwv : w = v
    · exact ⟨xs, by rw [hwv]; exact update_self v _ _⟩
    · obtain ⟨ys, hys⟩ := h.set w (by simpa [hwv] using hw)
      exact ⟨ys, (update_of_ne hwv _ _).trans hys⟩
  sized w ys hys := by
    by_cases hwv : w = v
    · subst hwv
      obtain rfl := Option.some.inj ((update_self w _ _).symm.trans hys)
      exact hlen
    · exact h.sized w ys ((update_of_ne hwv _ _).symm.trans hys)
  values w ys e hys he := by
    by_cases hwv : w = v
    · subst hwv
      obtain rfl := Option.some.inj ((update_self w _ _).symm.trans hys)
      obtain rfl := Option.mem_unique hd he
      exact ⟨u, update_self d _ _, hu⟩
    · obtain ⟨r, hr, hrep⟩ := h.values w ys e ((update_of_ne hwv _ _).symm.trans hys) he
      have hne : e ≠ d := by
        rintro rfl
        exact hwv (Sum.inl.inj (hm.inj (.inl w) (.inl v) e he hd))
      exact ⟨r, (update_of_ne hne _ _).trans hr, hrep⟩
  memory := h.memory
  allocated slot p hp htouch := by
    obtain ⟨henv, hobj⟩ := h.allocated slot p hp htouch
    have hne : p ≠ d := by
      rintro rfl
      exact Sum.inr_ne_inl (hm.inj (.inr slot) (.inl v) p hp hd)
    exact ⟨(update_of_ne hne _ _).trans henv, hobj⟩
  untouched := h.untouched

/-- An allocation marks its slot as accessed. -/
theorem Related.allocate (hm : LoweredAs f L m) {i : Inst}
    {slot : StackSlot} {p : LoweredValueId} (hslot : i.data.slot? = some slot)
    (hp : m.slot slot = some p) (hnew : slot ∉ touched done) :
    Related f m M (done ++ [i]) bound fr
      { lfr.set p (.pointer p) with objects := update lfr.objects p M.stackBytes } where
  set := h.set
  sized := h.sized
  values w ys e hys he := by
    obtain ⟨r, hr, hrep⟩ := h.values w ys e hys he
    have hne : e ≠ p := by
      rintro rfl
      exact Sum.inl_ne_inr (hm.inj (.inl w) (.inr slot) e he hp)
    exact ⟨r, (update_of_ne hne _ _).trans hr, hrep⟩
  memory := h.memory
  allocated s q hq htouch := by
    by_cases hs : s = slot
    · subst hs
      obtain rfl := Option.mem_unique hp hq
      refine ⟨update_self p _ _, ?_⟩
      rw [h.untouched s hnew]
      exact update_self p _ _
    · have hold : s ∈ touched done := by
        rw [touched_append] at htouch
        rcases List.mem_append.mp htouch with hmem | hmem
        · exact hmem
        · simp only [touched, List.filterMap_cons, hslot, List.filterMap_nil, List.mem_singleton] at hmem
          exact absurd hmem hs
      obtain ⟨henv, hobj⟩ := h.allocated s q hq hold
      have hne : q ≠ p := by
        rintro rfl
        exact hs (Sum.inr.inj (hm.inj (.inr s) (.inr slot) q hq hp))
      exact ⟨(update_of_ne hne _ _).trans henv, (update_of_ne hne _ _).trans hobj⟩
  untouched s hnot := h.untouched s fun hmem => hnot (by
    rw [touched_append]
    exact List.mem_append_left _ hmem)

/-- New bytes for a slot that has its allocation. -/
theorem Related.updateSlot (hm : LoweredAs f L m)
    {slot : StackSlot} {p : LoweredValueId} (hp : m.slot slot = some p)
    (htouch : slot ∈ touched done) (content : Region) :
    Related f m M done bound { fr with slots := update fr.slots slot content }
      { lfr with objects := update lfr.objects p content } where
  set := h.set
  sized := h.sized
  values := h.values
  memory := h.memory
  allocated s q hq hs := by
    obtain ⟨henv, hobj⟩ := h.allocated s q hq hs
    refine ⟨henv, ?_⟩
    by_cases heq : s = slot
    · subst heq
      obtain rfl := Option.mem_unique hp hq
      exact (update_self p _ _).trans (update_self s content fr.slots).symm
    · have hne : q ≠ p := by
        rintro rfl
        exact heq (Sum.inr.inj (hm.inj (.inr s) (.inr slot) q hq hp))
      exact (update_of_ne hne _ _).trans (hobj.trans (update_of_ne heq _ _).symm)
  untouched s hnot := by
    have hne : s ≠ slot := by
      rintro rfl
      exact hnot htouch
    exact (update_of_ne hne _ _).trans (h.untouched s hnot)

end Frames

/-! ## Widths -/

variable {t : LoweredType}

theorem scalarBits_toLowered {s : Scalar} (h : s.toLowered = some t) : t.scalarBits = some s.bits := by
  cases s <;> cases h <;> rfl

variable {ty : ClType}

theorem scalarBits_of_scalar (h : scalarTypeToLowered ty = some t) :
    t.scalarBits = some ty.laneType.bits ∧ ty.laneCount = 1 := by
  cases ty with
  | scalar s => exact ⟨scalarBits_toLowered h, rfl⟩
  | vector lane log2 | dynamicVector lane log2 => cases h

theorem scalarBytes_of_scalar (h : scalarTypeToLowered ty = some t) :
    ∃ bytes, ty.scalarBytes = some bytes ∧ t.scalarBytes = some bytes := by
  cases ty with
  | scalar s =>
    refine ⟨s.bits / 8, rfl, ?_⟩
    rw [LoweredType.scalarBytes, (scalarBits_of_scalar h).1]
    rfl
  | vector lane log2 | dynamicVector lane log2 => cases h

theorem scalarBits_of_int (h : craneliftIntTypeToLowered ty = some t) : t.scalarBits = some ty.laneType.bits := by
  unfold craneliftIntTypeToLowered at h
  split at h <;> cases h <;> rfl

theorem scalarBits_of_lane (h : vectorLaneType ty = some t) : t.scalarBits = some ty.laneType.bits := by
  cases ty with
  | scalar s => cases h
  | vector lane log2 => exact scalarBits_toLowered h
  | dynamicVector lane log2 => cases h

theorem laneCount_of_isScalarInt (h : ty.isScalarInt = true) : ty.laneCount = 1 := by
  cases ty with
  | scalar s => rfl
  | vector lane log2 | dynamicVector lane log2 => cases h

/-! ## One instruction -/

/-- In every lane the mask covers the bits that matter. -/
def LanesMasked (w : Nat) (cs xs ys : Lanes) : Prop :=
  ∀ k c x y : Nat, cs[k]? = some c → xs[k]? = some x → ys[k]? = some y →
    MaskCovers (BitVec.ofNat w c) (BitVec.ofNat w x) (BitVec.ofNat w y)

/-- The `bitselect` that is next to run, if there is one, has such a mask. -/
def Function.MasksCover (f : Function) : Config → Prop
  | .running (⟨.ternary .bitselect c x y, _⟩ :: _) fr =>
    ∀ cs xs ys, fr.env c = some cs → fr.env x = some xs → fr.env y = some ys → LanesMasked (f.width c) cs xs ys
  | _ => True

section Inst

variable {f : Function} {L : LoweredFunction} {m : Maps} {M : Machine} {done : List Inst}
  {bound : List Value} {fr : Frame} {lfr : LoweredFrame}

/-- The instruction and the operation give the result the same lanes. -/
def Computes (f : Function) (M : Machine) (fr : Frame) (lfr : LoweredFrame) (d : Value)
    (data : InstData) (op : LoweredOp) : Prop :=
  ∃ xs u, f.eval M fr d data = some xs ∧ op.eval M lfr = some u ∧
    xs.length = (f.valueType d).laneCount ∧ Represents u xs

variable {i : Inst} {slot : StackSlot}

theorem lowered_step {op : LoweredOp} {lfr' : LoweredFrame} (hterm : op.isTerminator = false)
    (h : op.exec M lfr = some lfr') (rest : List LoweredOp) :
    L.step M (.running (op :: rest) lfr) = some (.running rest lfr') := by
  cases op with
  | br _ _ | condBr _ _ _ _ _ | switch _ _ _ | «return» _ => cases hterm
  | _ => simp only [LoweredFunction.step, h, map_some]

theorem step_exec {fr' : Frame} (hterm : i.data.isTerminator = false) (h : f.exec M fr i = some fr')
    (rest : List Inst) : f.step M (.running (i :: rest) fr) = some (.running rest fr') := by
  obtain ⟨data, results⟩ := i
  cases data with
  | jump _ | brif _ _ _ | brTable _ _ _ | multiAryReturn _ => cases hterm
  | _ => simp only [Function.step, h, map_some]

/-- What running an instruction and its operations does to related frames. -/
def Runs (f : Function) (L : LoweredFunction) (m : Maps) (M : Machine) (done : List Inst)
    (bound : List Value) (fr : Frame) (lfr : LoweredFrame) (i : Inst) (ops : List LoweredOp) : Prop :=
  ∃ fr' lfr', f.exec M fr i = some fr' ∧
    (∀ rest, Reaches (L.step M) (.running (ops ++ rest) lfr) (.running rest lfr')) ∧
    Related f m M (done ++ [i]) (bound ++ i.results) fr' lfr'

theorem touched_snoc (h : i.data.slot? = none) (done : List Inst) (slot : StackSlot) :
    slot ∈ touched (done ++ [i]) ↔ slot ∈ touched done := by
  rw [touched_append]
  simp [touched, h]

theorem mem_touched_snoc (h : i.data.slot? = some slot) (done : List Inst) (s : StackSlot) :
    s ∈ touched (done ++ [i]) ↔ s ∈ touched done ∨ s = slot := by
  rw [touched_append]
  simp [touched, h]

/-- The access has the byte order of the machine. -/
def NativeOrder (M : Machine) : InstData → Prop
  | .load flags _ _ | .store flags _ _ _ => flags.order M = M.endianness
  | _ => True

theorem laneCount_of_address {v : Value} (h : f.valueType v = .scalar .i32 ∨ f.valueType v = .scalar .i64) :
    (f.valueType v).laneCount = 1 := by
  rcases h with h | h <;> rw [h] <;> rfl

theorem truth_result_type {all : Bool} (htyped : f.InstTyped ⟨.unary (truthOpcode all) x, [d]⟩) :
    f.valueType d = .scalar .i8 := by
  cases all with
  | true | false =>
    obtain ⟨d', hres, hty, -⟩ := htyped
    cases hres
    exact hty

attribute [local simp] Function.eval LoweredOp.eval

variable {ty laneTy : LoweredType} {src id : LoweredValueId} {x d : Value} {offset : Int} {before : List Inst}

variable (h : Related f m M done bound fr lfr)

include h

/-- Two operands of the type of the result, lane by lane. -/
theorem Related.computes_binary {op : BinaryOpcode} {x y : Value}
    {l r : LoweredValueId} {lane : BitVec (f.width d) → BitVec (f.width d) → BitVec (f.width d)} {lop : LoweredOp}
    (hop : op.lane (f.width d) = some lane)
    (hlop : ∀ v u, lfr.env l = some v → lfr.env r = some u → lop.eval M lfr = v.zipWith (onLanes lane) u)
    (hx : m.value x = some l) (hy : m.value y = some r) (hxb : x ∈ bound) (hyb : y ∈ bound)
    (hxt : f.valueType x = f.valueType d) (hyt : f.valueType y = f.valueType d) :
    Computes f M fr lfr d (.binary op x y) lop := by
  obtain ⟨xs, v, hxs, hxlen, hv, hvrep⟩ := h.read hxb hx
  obtain ⟨ys, u, hys, hylen, hu, hurep⟩ := h.read hyb hy
  rw [hxt] at hxlen
  rw [hyt] at hylen
  obtain ⟨w, hw, hrep⟩ := hvrep.zipWith hurep (hxlen.trans hylen.symm) (onLanes lane)
  refine ⟨List.zipWith (onLanes lane) xs ys, w, ?_, (hlop v u hv hu).trans hw, ?_, hrep⟩
  · simp [hop, hxs, hys]
  · rw [List.length_zipWith, hxlen, hylen, Nat.min_self]

theorem Related.computes_splat (hx : m.value x = some src) (hxb : x ∈ bound)
    (hone : (f.valueType x).laneCount = 1) : Computes f M fr lfr d (.unary .splat x) (.vSplat laneTy src id) := by
  obtain ⟨a, ha, hla⟩ := h.scalar hxb hx hone
  refine ⟨List.replicate (f.valueType d).laneCount a, .data none fun _ => a, ?_, ?_,
    List.length_replicate, represents_splat a _⟩
  · simp [ha]
  · simp [hla]

theorem Related.computes_truth {all : Bool} (hx : m.value x = some src) (hxb : x ∈ bound)
    (hd : f.valueType d = .scalar .i8) : Computes f M fr lfr d (.unary (truthOpcode all) x) (truthOp all src id) := by
  obtain ⟨xs, v, hxs, hlen, hv, hrep⟩ := h.read hxb hx
  have hne : xs ≠ [] := by
    intro hnil
    have hpos := (f.valueType x).laneCount_pos
    rw [← hlen, hnil] at hpos
    exact absurd hpos (Nat.lt_irrefl 0)
  obtain ⟨ys, hys, hall, hany⟩ := hrep.reduced hne fun a => !decide (a = 0)
  have hsize : (f.valueType d).laneCount = 1 := by rw [hd]; rfl
  refine ⟨[(if all then xs.all fun a => !decide (a = 0) else xs.any fun a => !decide (a = 0)).toNat], _, ?_, ?_,
    hsize.symm, represents_ofScalar _⟩
  · cases all <;> simp [truthOpcode, hxs]
  · cases all <;> simp [truthOp, hv, hys, hall, hany]

theorem Related.computes_bitselect {c x y : Value} {k l r : LoweredValueId} {rest : List Inst} {results : List Value}
    (hlane : vectorLaneType (f.valueType d) = some laneTy) (hc : m.value c = some k) (hx : m.value x = some l)
    (hy : m.value y = some r) (hcb : c ∈ bound) (hxb : x ∈ bound) (hyb : y ∈ bound)
    (hct : f.valueType c = f.valueType d) (hxt : f.valueType x = f.valueType d) (hyt : f.valueType y = f.valueType d)
    (hmask : f.MasksCover (.running (⟨.ternary .bitselect c x y, results⟩ :: rest) fr)) :
    Computes f M fr lfr d (.ternary .bitselect c x y) (.vSelect laneTy k l r id) := by
  obtain ⟨cs, v, hcs, hclen, hv, hvrep⟩ := h.read hcb hc
  obtain ⟨xs, u, hxs, hxlen, hu, hurep⟩ := h.read hxb hx
  obtain ⟨ys, w, hys, hylen, hw, hwrep⟩ := h.read hyb hy
  have hcovers : LanesMasked (f.width c) cs xs ys := hmask cs xs ys hcs hxs hys
  have hwidth : f.width c = f.width d := congrArg (fun ty => ty.laneType.bits) hct
  rw [hwidth] at hcovers
  rw [hct] at hclen
  rw [hxt] at hxlen
  rw [hyt] at hylen
  have hlanes : ∀ k a b e : Nat, cs[k]? = some a → xs[k]? = some b → ys[k]? = some e →
      onMaskedLanes (laneSelect (w := f.width d)) a b e = onMaskedLanes (bitselect (w := f.width d)) a b e :=
    fun k a b e ha hb he =>
      congrArg BitVec.toNat ((bitselect_eq_laneSelect_iff _ _ _).mpr (hcovers k a b e ha hb he)).symm
  obtain ⟨res, hres, hrep⟩ := hvrep.zipWith3 hurep hwrep (hclen.trans hxlen.symm)
    (hxlen.trans hylen.symm) hlanes
  refine ⟨_, res, ?_, ?_, ?_, hrep⟩
  · simp [hcs, hxs, hys]
  · have hbits : laneTy.scalarBits = some (f.width d) := scalarBits_of_lane hlane
    simp [hbits, hv, hu, hw, hres]
  · rw [length_zipWith3 _ (hclen.trans hxlen.symm) (hxlen.trans hylen.symm), hylen]

theorem Related.computes_select {c x y : Value} {k l r : LoweredValueId}
    (hc : m.value c = some k) (hx : m.value x = some l) (hy : m.value y = some r) (hcb : c ∈ bound) (hxb : x ∈ bound)
    (hyb : y ∈ bound) (hone : (f.valueType c).laneCount = 1) (hxt : f.valueType x = f.valueType d)
    (hyt : f.valueType y = f.valueType d) : Computes f M fr lfr d (.ternary .select c x y) (.select ty k l r id) := by
  obtain ⟨a, ha, hla⟩ := h.scalar hcb hc hone
  obtain ⟨xs, u, hxs, hxlen, hu, hurep⟩ := h.read hxb hx
  obtain ⟨ys, w, hys, hylen, hw, hwrep⟩ := h.read hyb hy
  by_cases hzero : a = 0
  · refine ⟨ys, w, ?_, ?_, ?_, hwrep⟩
    · simp [ha, hys, hzero]
    · simp [hla, hw, hzero]
    · rw [hylen, hyt]
  · refine ⟨xs, u, ?_, ?_, ?_, hurep⟩
    · simp [ha, hxs, hzero]
    · simp [hla, hu, hzero]
    · rw [hxlen, hxt]

variable {flags : MemFlags}

theorem Related.computes_bitcast {fromTy toTy : LoweredType}
    (hfrom : scalarTypeToLowered (f.valueType x) = some fromTy)
    (hto : scalarTypeToLowered (f.valueType d) = some toTy) (hx : m.value x = some src) (hxb : x ∈ bound) :
    Computes f M fr lfr d (.bitcast flags x) (.conv .bitcast fromTy toTy src id) := by
  obtain ⟨hfromBits, hxone⟩ := scalarBits_of_scalar hfrom
  obtain ⟨htoBits, hdone⟩ := scalarBits_of_scalar hto
  obtain ⟨a, count, lane, henv, hlenv, hlane⟩ := h.readScalar hxb hx hxone
  have hscalar := LoweredFrame.scalar_of_env hlenv hlane
  refine ⟨[a], .ofScalar a, ?_, ?_, hdone.symm, represents_ofScalar a⟩
  · simp [hxone, hdone, henv]
  · simp [hfromBits, htoBits, hscalar, ConvKind.apply]

theorem Related.computes_resize {op : UnaryOpcode} {kind : ConvKind} {fromTy toTy : LoweredType}
    (hkind : resizeKind op = some kind) (hfrom : scalarTypeToLowered (f.valueType x) = some fromTy)
    (hto : scalarTypeToLowered (f.valueType d) = some toTy) (hx : m.value x = some src) (hxb : x ∈ bound) :
    Computes f M fr lfr d (.unary op x) (.conv kind fromTy toTy src id) := by
  obtain ⟨hfromBits, hxone⟩ := scalarBits_of_scalar hfrom
  obtain ⟨htoBits, hdone⟩ := scalarBits_of_scalar hto
  obtain ⟨a, ha, hla⟩ := h.scalar hxb hx hxone
  refine ⟨[kind.apply (f.width x) (f.width d) a], .ofScalar _, ?_, ?_, hdone.symm, represents_ofScalar _⟩
  · unfold resizeKind at hkind
    split at hkind <;> cases hkind <;>
      simp [ha, ConvKind.apply]
  · simp only [LoweredOp.eval, hfromBits, htoBits, hla, bind_eq_bind, bind_some, pure_def]
    rfl

theorem Related.computes_load {base : LoweredValueId}
    (hty : scalarTypeToLowered (f.valueType d) = some ty) (hx : m.value x = some base) (hxb : x ∈ bound)
    (hone : (f.valueType x).laneCount = 1) (hnative : flags.order M = M.endianness) :
    Computes f M fr lfr d (.load flags x offset) (.load ty base offset id) := by
  obtain ⟨a, count, lane, henv, hlenv, rfl⟩ := h.readScalar hxb hx hone
  obtain ⟨bytes, hbytes, hlbytes⟩ := scalarBytes_of_scalar hty
  have hscalar := Frame.scalar_of_env henv
  refine ⟨[fr.memory.read M.wrap M.endianness bytes (lane 0 + offset)], .ofScalar _, ?_, ?_,
    (scalarBits_of_scalar hty).2.symm, represents_ofScalar _⟩
  · simp [hbytes, hscalar, hnative]
  · simp [hlbytes, hlenv, h.memory]

theorem Related.runs_store {v x : Value}
    {value base : LoweredValueId} (hty : scalarTypeToLowered (f.valueType v) = some ty)
    (hv : m.value v = some value) (hx : m.value x = some base) (hvb : v ∈ bound) (hxb : x ∈ bound)
    (hone : (f.valueType x).laneCount = 1) (hnative : flags.order M = M.endianness) :
    Runs f L m M done bound fr lfr ⟨.store flags v x offset, []⟩ [.store ty value base offset] := by
  obtain ⟨a, ha, hla⟩ := h.scalar hvb hv (scalarBits_of_scalar hty).2
  obtain ⟨b, count, lane, henv, hlenv, rfl⟩ := h.readScalar hxb hx hone
  obtain ⟨bytes, hbytes, hlbytes⟩ := scalarBytes_of_scalar hty
  have hscalar := Frame.scalar_of_env henv
  let memory' := fr.memory.write M.wrap M.endianness bytes (lane 0 + offset) a
  have hrun : (LoweredOp.store ty value base offset).exec M lfr = some { lfr with memory := memory' } := by
    simp [LoweredOp.exec, hlbytes, hla, hlenv, h.memory, memory']
  refine ⟨{ fr with memory := memory' }, { lfr with memory := memory' }, ?_, fun rest => ?_, ?_⟩
  · simp [Function.exec, hbytes, ha, hscalar, hnative, memory']
  · exact reaches_step (lowered_step rfl hrun rest)
  · have hkeep : Related f m M done bound { fr with memory := memory' }
        { lfr with memory := memory' } :=
      ⟨h.set, h.sized, h.values, rfl, h.allocated, h.untouched⟩
    exact hkeep.weaken (touched_snoc rfl done) fun w hw => by simpa using hw

variable (hm : LoweredAs f L m)

include hm

/-- An instruction that only computes a value. -/
theorem Related.runs_of_computes {data : InstData} {op : LoweredOp} (hcomputes : Computes f M fr lfr d data op)
    (hd : m.value d = some id) (hterm : op.isTerminator = false := by rfl)
    (hslot : data.slot? = none := by rfl)
    (hexec : ∀ fr : Frame, f.exec M fr ⟨data, [d]⟩ = (f.eval M fr d data).map (fr.set d) := by exact fun _ => rfl)
    (hlexec : ∀ lfr : LoweredFrame, op.exec M lfr = (op.eval M lfr).map (lfr.set id) := by exact fun _ => rfl) :
    Runs f L m M done bound fr lfr ⟨data, [d]⟩ [op] := by
  obtain ⟨xs, u, heval, hleval, hlen, hrep⟩ := hcomputes
  have hrun : op.exec M lfr = some (lfr.set id u) := by rw [hlexec, hleval, map_some]
  refine ⟨fr.set d xs, lfr.set id u, ?_, fun rest => ?_, ?_⟩
  · rw [hexec, heval, map_some]
  · exact reaches_step (lowered_step hterm hrun rest)
  · exact (h.setValue hm hd hlen hrep).weaken (touched_snoc hslot done) fun _ hv => hv

/-- Before the access itself, the slot has its allocation: it is made now, or it was made before. -/
theorem Related.runs_alloca (ty : LoweredType) {p : LoweredValueId} (hslot : i.data.slot? = some slot)
    (hp : m.slot slot = some p) (hseen : slot ∈ touched before ↔ slot ∈ touched done) :
    ∃ lfr', (∀ rest, Reaches (L.step M) (.running (allocaOps f before slot ty p ++ rest) lfr)
      (.running rest lfr')) ∧ Related f m M (done ++ [i]) bound fr lfr' := by
  unfold allocaOps
  by_cases hbefore : slot ∈ touched before
  · rw [if_pos hbefore]
    refine ⟨lfr, fun rest => .refl, h.weaken (fun s => ?_) fun _ hv => hv⟩
    rw [mem_touched_snoc hslot]
    exact or_iff_left_of_imp fun hs => hs ▸ hseen.mp hbefore
  · rw [if_neg hbefore]
    refine ⟨_, fun rest => ?_, h.allocate hm hslot hp fun hdone => hbefore (hseen.mpr hdone)⟩
    exact reaches_step (lowered_step rfl rfl rest)

theorem Related.runs_stackLoad {p res : LoweredValueId} (hty : scalarTypeToLowered (f.valueType d) = some ty)
    (hp : m.slot slot = some p) (hd : m.value d = some res) (hseen : slot ∈ touched before ↔ slot ∈ touched done) :
    Runs f L m M done bound fr lfr ⟨.stackLoad slot offset, [d]⟩
      (allocaOps f before slot ty p ++ [.load ty p offset res]) := by
  obtain ⟨lfr', hreach, hrel⟩ :=
    h.runs_alloca (i := ⟨.stackLoad slot offset, [d]⟩) hm ty rfl hp hseen
  obtain ⟨henv, hobj⟩ := hrel.allocated slot p hp ((mem_touched_snoc rfl done slot).mpr (.inr rfl))
  obtain ⟨bytes, hbytes, hlbytes⟩ := scalarBytes_of_scalar hty
  let a := (fr.slots slot).read id M.endianness bytes offset
  have hrun : (LoweredOp.load ty p offset res).exec M lfr' = some (lfr'.set res (.ofScalar a)) := by
    simp [LoweredOp.exec, LoweredOp.result, hlbytes, henv, hobj, a]
  refine ⟨fr.set d [a], lfr'.set res (.ofScalar a), ?_, fun rest => ?_, ?_⟩
  · simp [Function.exec, hbytes, a]
  · rw [List.append_assoc]
    exact (hreach _).trans (reaches_step (lowered_step rfl hrun rest))
  · exact hrel.setValue hm hd (scalarBits_of_scalar hty).2.symm (represents_ofScalar a)

theorem Related.runs_stackStore {v : Value}
    {value p : LoweredValueId} (hty : scalarTypeToLowered (f.valueType v) = some ty) (hv : m.value v = some value)
    (hp : m.slot slot = some p) (hvb : v ∈ bound) (hseen : slot ∈ touched before ↔ slot ∈ touched done) :
    Runs f L m M done bound fr lfr ⟨.stackStore v slot offset, []⟩
      (allocaOps f before slot ty p ++ [.store ty value p offset]) := by
  obtain ⟨lfr', hreach, hrel⟩ :=
    h.runs_alloca (i := ⟨.stackStore v slot offset, []⟩) hm ty rfl hp hseen
  have htouch := (mem_touched_snoc (i := ⟨.stackStore v slot offset, []⟩) rfl done slot).mpr (.inr rfl)
  obtain ⟨henv, hobj⟩ := hrel.allocated slot p hp htouch
  obtain ⟨a, ha, hla⟩ := hrel.scalar hvb hv (scalarBits_of_scalar hty).2
  obtain ⟨bytes, hbytes, hlbytes⟩ := scalarBytes_of_scalar hty
  let content := (fr.slots slot).write id M.endianness bytes offset a
  have hrun : (LoweredOp.store ty value p offset).exec M lfr' =
      some { lfr' with objects := update lfr'.objects p content } := by
    simp [LoweredOp.exec, hlbytes, hla, henv, hobj, content]
  refine ⟨{ fr with slots := update fr.slots slot content },
    { lfr' with objects := update lfr'.objects p content }, ?_, fun rest => ?_, ?_⟩
  · simp [Function.exec, hbytes, ha, content]
  · rw [List.append_assoc]
    exact (hreach _).trans (reaches_step (lowered_step rfl hrun rest))
  · rw [List.append_nil]
    exact hrel.updateSlot hm hp htouch content

/-- An instruction in the middle of a block keeps the frames related. -/
theorem Related.runs {ops : List LoweredOp}
    {rest : List Inst} (hlow : InstLowers f m before i ops) (htyped : f.InstTyped i)
    (hterm : i.data.isTerminator = false) (hnative : NativeOrder M i.data) (huses : ∀ v ∈ i.data.uses, v ∈ bound)
    (hseen : ∀ slot, i.data.slot? = some slot → (slot ∈ touched before ↔ slot ∈ touched done))
    (hmask : f.MasksCover (.running (i :: rest) fr)) : Runs f L m M done bound fr lfr i ops := by
  have hargs : ∀ v ∈ i.data.args, v ∈ bound := fun v hv => huses v (List.mem_append_left _ hv)
  have hsecond : ∀ {x y : Value} {l : List Value}, y ∈ x :: y :: l :=
    List.mem_cons_of_mem _ mem_cons_self
  cases hlow with
  | @arith op kind x y d ty l r id hkind hty hx hy hd =>
    have hint : op.isIntegerOp = true := by
      cases op <;> first | rfl | cases hkind
    obtain ⟨d', hres, hxt, hyt, -⟩ := htyped hint
    cases hres
    obtain ⟨hlane, lane, hkindLane⟩ := lane_wrappingKind hkind (f.width d)
    refine h.runs_of_computes hm (h.computes_binary (hlane.trans hkindLane) (fun v u hv hu => ?_) hx hy
      (hargs x mem_cons_self) (hargs y hsecond) hxt hyt) hd
    have hbits : ty.scalarBits = some (f.width d) := scalarBits_of_int hty
    simp [hbits, hkindLane, hv, hu]
  | @vMin signed x y d laneTy l r id hlane hx hy hd =>
    obtain ⟨d', hres, hxt, hyt, -⟩ := htyped (by cases signed <;> rfl)
    cases hres
    refine h.runs_of_computes hm (h.computes_binary (lane_minOpcode (f.width d) signed) (fun v u hv hu => ?_) hx hy
      (hargs x mem_cons_self) (hargs y hsecond) hxt hyt) hd
    have hbits : laneTy.scalarBits = some (f.width d) := scalarBits_of_lane hlane
    simp [hbits, hv, hu]
  | @vMax signed x y d laneTy l r id hlane hx hy hd =>
    obtain ⟨d', hres, hxt, hyt, -⟩ := htyped (by cases signed <;> rfl)
    cases hres
    refine h.runs_of_computes hm (h.computes_binary (lane_maxOpcode (f.width d) signed) (fun v u hv hu => ?_) hx hy
      (hargs x mem_cons_self) (hargs y hsecond) hxt hyt) hd
    have hbits : laneTy.scalarBits = some (f.width d) := scalarBits_of_lane hlane
    simp [hbits, hv, hu]
  | @vSplat x d laneTy s id hlane hx hd =>
    obtain ⟨d', hres, hxt, -⟩ := htyped
    cases hres
    have hone : (f.valueType x).laneCount = 1 := by rw [hxt]; rfl
    exact h.runs_of_computes hm (h.computes_splat hx (hargs x mem_cons_self) hone) hd
  | @vTruth all x d s id hvec hx hd =>
    have hdt : f.valueType d = .scalar .i8 := truth_result_type htyped
    have hcomp : Computes f M fr lfr d (.unary (truthOpcode all) x) (truthOp all s id) :=
      h.computes_truth hx (hargs x mem_cons_self) hdt
    cases all with
    | true | false => exact h.runs_of_computes hm hcomp hd
  | @vSelect c x y d laneTy k l r id hlane hc hx hy hd =>
    obtain ⟨d', hres, hct, hxt, hyt⟩ := htyped
    cases hres
    exact h.runs_of_computes hm (h.computes_bitselect hlane hc hx hy (hargs c mem_cons_self) (hargs x hsecond)
      (hargs y (List.mem_cons_of_mem _ hsecond)) hct hxt hyt hmask) hd
  | @select c x y d ty k l r id hty hc hx hy hd =>
    obtain ⟨d', hres, hct, hxt, hyt⟩ := htyped
    cases hres
    exact h.runs_of_computes hm (h.computes_select hc hx hy (hargs c mem_cons_self) (hargs x hsecond)
      (hargs y (List.mem_cons_of_mem _ hsecond)) (laneCount_of_isScalarInt hct) hxt hyt) hd
  | @bitcast flags x d fromTy toTy s id hfrom hto hx hd =>
    exact h.runs_of_computes hm (h.computes_bitcast hfrom hto hx (hargs x mem_cons_self)) hd
  | @resize op kind x d fromTy toTy s id hkind hfrom hto hint hx hd =>
    exact h.runs_of_computes hm (h.computes_resize hkind hfrom hto hx (hargs x mem_cons_self))
      hd
  | @load flags x d offset ty base id hty hx hd =>
    obtain ⟨d', -, haddr⟩ := htyped
    exact h.runs_of_computes hm (h.computes_load hty hx (hargs x mem_cons_self)
      (laneCount_of_address haddr) hnative) hd
  | @store flags v x offset ty value base hty hv hx =>
    exact h.runs_store hty hv hx (hargs v mem_cons_self) (hargs x hsecond)
      (laneCount_of_address htyped.2) hnative
  | stackLoad hty hslot hd => exact h.runs_stackLoad hm hty hslot hd (hseen _ rfl)
  | @stackStore v slot offset ty value p hty hv hslot =>
    exact h.runs_stackStore hm hty hv hslot (hargs v mem_cons_self) (hseen _ rfl)
  | jump _ _ | brif _ _ _ _ _ | brTable _ _ _ _ | ret _ => cases hterm

end Inst

end TensorWasm.Clif
