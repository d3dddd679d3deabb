import TensorWasm.Lib.LaneTerms

/-!
# The static check decides agreement

The two readings of a lane program are run over terms side by side. What keeps them comparable is
the *leftmost leaf* of each slot: both readings compute a slot from the same leftmost leaf, and on
the scalar-wise stack every leaf of a lower slot is smaller than the leftmost leaf of a higher one
(`Ordered`). An operation of two or more lanes therefore always drives the readings apart: a
vector-wise result contains a leaf that the scalar-wise slot cannot contain. `Related` records this
next to the flags of the check; `related_step` carries it over one instruction and `agree_iff` is
the result over whole programs.
-/

namespace TensorWasm.Lib

open List
open Term (eval first free leaf)

variable {β τ V : Type}

/-! ## The relation between the two readings -/

section Relation

variable [DecidableEq β] [DecidableEq τ]

/-- Two stacks with the same leftmost leaves, the scalar-wise one ordered, and a flag for every
slot that says whether they differ there. -/
structure StackRel (c : Nat) (v s : List (Term β τ)) (flags : List Bool) : Prop where
  firsts : v.map first = s.map first
  ordered : Ordered c s
  flags_length : flags.length = s.length
  flag : ∀ (i : Nat) (t u : Term β τ), v[i]? = some t → s[i]? = some u → flags[i]? = some (decide (t ≠ u))

namespace StackRel

variable {c : Nat} {v s : List (Term β τ)} {flags : List Bool}

theorem nil : StackRel c ([] : List (Term β τ)) [] [] := ⟨rfl, .nil, rfl, by simp⟩

/-- The flag an `n`-lane operation gives each of its results. -/
theorem getElem?_resultFlags {n i : Nat} (b : Bool) (hi : i < n) :
    (resultFlags n b)[i]? = some (if n = 1 then b else true) := by
  by_cases hn : n = 1
  · simp [resultFlags, hn, show i = 0 by omega]
  · simp [resultFlags, hn, hi]

@[simp] theorem length_resultFlags (n : Nat) (b : Bool) : (resultFlags n b).length = n := by
  by_cases hn : n = 1 <;> simp [resultFlags, hn]

variable (h : StackRel c v s flags)

include h

theorem length_eq : v.length = s.length := by
  simpa using congrArg List.length h.firsts

/-- Slots at the same position have the same leftmost leaf. -/
theorem first_eq {i : Nat} {t u : Term β τ} (ht : v[i]? = some t) (hu : s[i]? = some u) : t.first = u.first := by
  have := congrArg (·[i]?) h.firsts
  simpa [ht, hu] using this

/-- Every position of the vector-wise stack is one of the scalar-wise stack. -/
theorem exists_right {i : Nat} {t : Term β τ} (ht : v[i]? = some t) : ∃ u, s[i]? = some u := by
  have hi := (List.getElem?_eq_some_iff.mp ht).1
  exact ⟨_, getElem?_eq_getElem (h.length_eq ▸ hi)⟩

theorem drop (n : Nat) : StackRel c (v.drop n) (s.drop n) (flags.drop n) := by
  refine ⟨?_, h.ordered.drop n, by simp [h.flags_length], ?_⟩
  · rw [map_drop, map_drop, h.firsts]
  · intro i t u ht hu
    rw [getElem?_drop] at ht hu ⊢
    exact h.flag _ t u ht hu

theorem load (n : Nat) :
    StackRel (c + n) (((List.range' c n).map leaf).reverse ++ v)
      (((List.range' c n).map leaf).reverse ++ s) (List.replicate n false ++ flags) := by
  refine ⟨by simp [h.firsts], h.ordered.load n, by simp [h.flags_length], ?_⟩
  intro i t u ht hu
  by_cases hi : i < n
  · rw [List.getElem?_append_left (by simpa using hi)] at ht hu ⊢
    rw [Option.mem_unique ht hu]
    simp [hi]
  · rw [List.getElem?_append_right (by simpa using hi)] at ht hu ⊢
    simp only [length_reverse, length_map, length_range', length_replicate]
      at ht hu ⊢
    exact h.flag _ t u ht hu

variable {s' : List (Term β τ)}

omit h in
/-- An `n`-lane operation keeps the relation, given that its flags describe its `n` results. -/
theorem lanes {k n : Nat} {lane : List (Term β τ) → Option (List (Term β τ))}
    (hl : IsLane k lane) (h : StackRel c v s flags) (hn : (k + 1) * n ≤ s.length)
    {v' : List (Term β τ)} (hs' : repeatLane lane n s = some s')
    (hfirst : v'.map first = (v.map first).drop (k * n))
    (hrest : v'.drop n = v.drop ((k + 1) * n)) {b : Bool}
    (hnew : ∀ (i : Nat) (t u : Term β τ), i < n → v'[i]? = some t → s'[i]? = some u →
      (if n = 1 then b else true) = decide (t ≠ u)) :
    StackRel c v' s' (resultFlags n b ++ flags.drop ((k + 1) * n)) := by
  have hfirst' : v'.map first = s'.map first := by
    rw [hfirst, repeatLane_firsts hl hs', h.firsts]
  have hdrop := repeatLane_drop hl hn hs'
  have hlen : s'.length = s.length - k * n := by
    simpa using congrArg List.length (repeatLane_firsts hl hs')
  have hk : (k + 1) * n = k * n + n := Nat.succ_mul k n
  refine ⟨hfirst', ?_, ?_, ?_⟩
  · exact repeatLane_keeps (hl.ordered c) h.ordered hs'
  · rw [length_append, length_resultFlags, length_drop, h.flags_length, hlen]
    omega
  · intro i t u ht hu
    by_cases hi : i < n
    · rw [List.getElem?_append_left (by simpa using hi), getElem?_resultFlags b hi,
        hnew i t u hi ht hu]
    · -- below the results both stacks are the old ones
      have hin : n + (i - n) = i := by omega
      rw [List.getElem?_append_right (by simpa using hi), length_resultFlags]
      refine (h.drop ((k + 1) * n)).flag _ t u ?_ ?_
      · rw [← hrest, getElem?_drop, hin, ht]
      · rw [← hdrop, getElem?_drop, hin, hu]

/-- The leftmost leaf of a higher slot, on either stack, is not a leaf of a lower scalar-wise
slot. This is what makes results of two or more lanes differ. -/
theorem first_not_mem {i j : Nat} (hij : i < j) {b u : Term β τ}
    (hb : v[i]? = some b) (hu : s[j]? = some u) : b.first ∉ u.leaves := by
  intro hmem
  obtain ⟨w, hw⟩ := h.exists_right hb
  have hlt := h.ordered.lt_first hij hw hu _ hmem
  rw [h.first_eq hb hw] at hlt
  exact Nat.lt_irrefl _ hlt

theorem bin (o : β) {n : Nat} (hn : 2 * n ≤ s.length) (hs' : repeatLane (binLane (free β τ) o) n s = some s') :
    StackRel c (zipBin (Term.bin o) n v) s' (resultFlags n ((flags.take 2).any id) ++ flags.drop (2 * n)) := by
  have hv : 2 * n ≤ v.length := h.length_eq ▸ hn
  refine h.lanes (isLane_bin o) hn hs' (zipBin_spec o hv).1 (zipBin_drop hv) ?_
  intro i t u hi ht hu
  obtain ⟨a, b, ha, hb, rfl⟩ := getElem?_zipBin hv hi ht
  rcases n with _ | _ | m
  · omega
  · -- one lane: the results differ exactly when an operand differs
    obtain rfl : i = 0 := by omega
    rcases s with _ | ⟨b', _ | ⟨a', s⟩⟩
    · simp at hn
    · simp at hn
    · cases hs'
      cases hu
      have hfb := h.flag 0 b b' hb rfl
      have hfa := h.flag 1 a a' ha rfl
      rcases flags with _ | ⟨fb, _ | ⟨fa, flags⟩⟩
      · simp at hfb
      · simp at hfa
      · simp only [List.getElem?_cons_zero, getElem?_cons_succ, Option.some.injEq] at hfa hfb
        subst hfa hfb
        simp [free, Bool.or_comm, not_and_or, -not_and]
  · -- two or more lanes: the results always differ
    have hne : Term.bin o a b ≠ u := by
      obtain ⟨y, hy, hlast⟩ := repeatLane_last (isLane_bin o) (by omega) hs'
      rw [Nat.one_mul, drop_eq_getElem_cons (show m + 1 + 1 < s.length by omega)] at hlast
      cases hlast
      rcases i with _ | i
      · cases hu
        intro heq
        obtain ⟨-, -, rfl⟩ := Term.bin.inj heq
        obtain ⟨z, hz⟩ : ∃ z, s[1 * (m + 1)]? = some z := ⟨_, getElem?_eq_getElem (by omega)⟩
        refine h.first_not_mem (by omega) hb hz ?_
        rw [first_repeatLane (isLane_bin o) hy hz]
        exact z.first_mem_leaves
      · rw [getElem?_cons_succ, getElem?_drop] at hu
        intro heq
        refine h.first_not_mem (by omega) hb hu ?_
        rw [← heq]
        exact mem_append_right _ b.first_mem_leaves
    simp [hne]

theorem ter (o : τ) {n : Nat} (hn : 3 * n ≤ s.length) (hs' : repeatLane (terLane (free β τ) o) n s = some s') :
    StackRel c (zipTer (Term.ter o) n v) s' (resultFlags n ((flags.take 3).any id) ++ flags.drop (3 * n)) := by
  have hv : 3 * n ≤ v.length := h.length_eq ▸ hn
  refine h.lanes (isLane_ter o) hn hs' (zipTer_spec o hv).1 (zipTer_drop hv) ?_
  intro i t u hi ht hu
  obtain ⟨a, b, d, ha, hb, hd, rfl⟩ := getElem?_zipTer hv hi ht
  rcases n with _ | _ | m
  · omega
  · obtain rfl : i = 0 := by omega
    rcases s with _ | ⟨d', _ | ⟨b', _ | ⟨a', s⟩⟩⟩
    · simp at hn
    · simp at hn
    · simp at hn
    · cases hs'
      cases hu
      have hfd := h.flag 0 d d' hd rfl
      have hfb := h.flag 1 b b' hb rfl
      have hfa := h.flag 2 a a' ha rfl
      rcases flags with _ | ⟨fd, _ | ⟨fb, _ | ⟨fa, flags⟩⟩⟩
      · simp at hfd
      · simp at hfb
      · simp at hfa
      · simp only [List.getElem?_cons_zero, getElem?_cons_succ, Option.some.injEq]
          at hfa hfb hfd
        subst hfa hfb hfd
        by_cases h1 : a = a' <;> by_cases h2 : b = b' <;> by_cases h3 : d = d' <;>
          simp [free, h1, h2, h3]
  · -- as for two operands, with the middle operand as the witness
    have hne : Term.ter o a b d ≠ u := by
      obtain ⟨y, -, hlast⟩ := repeatLane_last (isLane_ter o) (by omega) hs'
      rw [drop_eq_getElem_cons (show 2 * (m + 1) + 1 < s.length by omega),
        drop_eq_getElem_cons (show 2 * (m + 1) + 1 + 1 < s.length by omega)] at hlast
      cases hlast
      rcases i with _ | i
      · cases hu
        intro heq
        obtain ⟨-, -, hbeq, -⟩ := Term.ter.inj heq
        refine h.first_not_mem (j := 2 * (m + 1) + 1) (by omega) hb
          (getElem?_eq_getElem (by omega)) ?_
        rw [← hbeq]
        exact b.first_mem_leaves
      · rw [getElem?_cons_succ, getElem?_drop] at hu
        intro heq
        refine h.first_not_mem (by omega) hb hu ?_
        rw [← heq]
        exact mem_append_left _ (mem_append_right _ b.first_mem_leaves)
    simp [hne]

end StackRel

/-- The whole states: related stacks at one cursor, and a verdict on what was stored. -/
structure Related (v s : LaneState (Term β τ)) (f : FlowState) : Prop where
  cursor : v.cursor = s.cursor
  stack : StackRel s.cursor v.stack s.stack f.flags
  out_length : v.out.length = s.out.length
  agree : f.agree = true ↔ v.out = s.out

theorem related_init : Related (LaneState.init : LaneState (Term β τ)) .init .init :=
  ⟨rfl, .nil, rfl, by simp [FlowState.init, LaneState.init]⟩

/-- A store agrees exactly when it stores at most one lane, and an equal one. -/
theorem reverse_take_eq_iff {c n : Nat} {v s : List (Term β τ)} {flags : List Bool} (h : StackRel c v s flags)
    (hn : n ≤ s.length) : (v.take n).reverse = s.take n ↔ n ≤ 1 ∧ (flags.take n).any id = false := by
  rcases n with _ | _ | n
  · simp
  · have hv : 0 < v.length := h.length_eq ▸ hn
    obtain ⟨t, v, rfl⟩ := exists_cons_of_length_pos hv
    obtain ⟨u, s, rfl⟩ := exists_cons_of_length_pos hn
    have hf := h.flag 0 t u rfl rfl
    rcases flags with _ | ⟨f, flags⟩
    · simp at hf
    · simp only [List.getElem?_cons_zero, Option.some.injEq] at hf
      simp [hf]
  · -- the reversed vector starts with a slot that is strictly below the first scalar
    have hlen := h.length_eq
    constructor
    · intro heq
      exfalso
      have h0 : (v.take (n + 2)).reverse[0]? = v[n + 1]? := by
        rw [List.getElem?_reverse (by simp; omega), List.getElem?_take_of_lt (by simp; omega)]
        congr 1
        simp
        omega
      have hs0 : (s.take (n + 2))[0]? = s[0]? := List.getElem?_take_of_lt (by omega)
      rw [heq, hs0] at h0
      have ht : v[n + 1]? = some s[0] := by rw [← h0, getElem?_eq_getElem (by omega)]
      have hw : s[n + 1]? = some s[n + 1] := getElem?_eq_getElem (by omega)
      have h1 := h.first_eq ht hw
      have h2 := h.ordered.lt_first (Nat.succ_pos n) (getElem?_eq_getElem (by omega)) hw _
        s[n + 1].first_mem_leaves
      omega
    · rintro ⟨hle, -⟩
      omega

/-- **One instruction.** Either the check and the vector-wise reading both underflow, or all three
go on and stay related. -/
theorem related_step {v s : LaneState (Term β τ)} {f : FlowState} (h : Related v s f) (op : LaneOp β τ) :
    (flowStep op f = none ∧ vecStep (free β τ) leaf op v = none) ∨
      ∃ v' s' f', flowStep op f = some f' ∧ vecStep (free β τ) leaf op v = some v' ∧
        scalStep (free β τ) leaf op s = some s' ∧ Related v' s' f' := by
  obtain ⟨hc, hst, hol, hag⟩ := h
  have hv := hst.length_eq
  have hf := hst.flags_length
  cases op with
  | load n =>
    refine .inr ⟨_, _, _, rfl, rfl, scalStep_load _ _ n s, ?_, ?_, hol, hag⟩
    · simp only [loadLanes, hc]
    · simp only [loadLanes, hc]
      exact hst.load n
  | bin o n =>
    by_cases hn : 2 * n ≤ s.stack.length
    · obtain ⟨s', hs'⟩ := repeatLane_isSome (isLane_bin o) hn
      refine .inr ⟨⟨zipBin (Term.bin o) n v.stack, v.cursor, v.out⟩, { s with stack := s' },
        ⟨resultFlags n ((f.flags.take 2).any id) ++ f.flags.drop (2 * n), f.agree⟩,
        ?_, ?_, ?_, hc, hst.bin o hn hs', hol, hag⟩
      · simp [flowStep, hf, hn]
      · simp [vecStep, hv, hn, free]
      · simp [scalStep_bin, hs']
    · exact .inl ⟨by simp [flowStep, hf, hn], by simp [vecStep, hv, hn]⟩
  | ter o n =>
    by_cases hn : 3 * n ≤ s.stack.length
    · obtain ⟨s', hs'⟩ := repeatLane_isSome (isLane_ter o) hn
      refine .inr ⟨⟨zipTer (Term.ter o) n v.stack, v.cursor, v.out⟩, { s with stack := s' },
        ⟨resultFlags n ((f.flags.take 3).any id) ++ f.flags.drop (3 * n), f.agree⟩,
        ?_, ?_, ?_, hc, hst.ter o hn hs', hol, hag⟩
      · simp [flowStep, hf, hn]
      · simp [vecStep, hv, hn, free]
      · simp [scalStep_ter, hs']
    · exact .inl ⟨by simp [flowStep, hf, hn], by simp [vecStep, hv, hn]⟩
  | store n =>
    by_cases hn : n ≤ s.stack.length
    · refine .inr ⟨⟨v.stack.drop n, v.cursor, v.out ++ (v.stack.take n).reverse⟩,
        ⟨s.stack.drop n, s.cursor, s.out ++ s.stack.take n⟩,
        ⟨f.flags.drop n, f.agree && (n ≤ 1 && !(f.flags.take n).any id)⟩, ?_, ?_, ?_, hc, hst.drop n, ?_, ?_⟩
      · simp [flowStep, hf, hn]
      · simp [vecStep, hv, hn]
      · simp [scalStep_store, hn]
      · simp [hol, hv]
      · -- the outputs so far have one length, so they agree iff each part does
        simp only [Bool.and_eq_true, Bool.not_eq_true', decide_eq_true_eq, hag, ← reverse_take_eq_iff hst hn]
        refine ⟨fun hboth => ?_, fun heq => append_inj heq hol⟩
        rw [hboth.1, hboth.2]
    · exact .inl ⟨by simp [flowStep, hf, hn], by simp [vecStep, hv, hn]⟩

/-- **Whole programs**, by induction on the instructions. -/
theorem related_run {v s : LaneState (Term β τ)} {f : FlowState} (h : Related v s f) (ops : List (LaneOp β τ)) :
    (laneRun flowStep ops f = none ∧ laneRun (vecStep (free β τ) leaf) ops v = none) ∨
      ∃ v' s' f', laneRun flowStep ops f = some f' ∧
        laneRun (vecStep (free β τ) leaf) ops v = some v' ∧
        laneRun (scalStep (free β τ) leaf) ops s = some s' ∧ Related v' s' f' := by
  induction ops generalizing v s f with
  | nil => exact .inr ⟨v, s, f, rfl, rfl, rfl, h⟩
  | cons op ops ih =>
    rcases related_step h op with ⟨hf, hv⟩ | ⟨v', s', f', hf, hv, hs, h'⟩
    · exact .inl ⟨by simp [laneRun, hf], by simp [laneRun, hv]⟩
    · simpa [laneRun, hf, hv, hs] using ih h'

end Relation

/-! ## The check decides agreement -/

/-- The scalar-wise reading stores what the vector-wise one stores, for every meaning of the
operations and every input on which the latter runs. -/
def Agrees (V : Type) (ops : List (LaneOp β τ)) : Prop :=
  ∀ (A : Interp β τ V) (ρ : Nat → V) (v : LaneState V),
    laneRun (vecStep A ρ) ops .init = some v → ∃ s, laneRun (scalStep A ρ) ops .init = some s ∧ s.out = v.out

/-- Runs over a carrier are the evaluated runs over terms. -/
theorem laneRun_vec_eval (A : Interp β τ V) (ρ : Nat → V) (ops : List (LaneOp β τ)) :
    laneRun (vecStep A ρ) ops .init =
      (laneRun (vecStep (free β τ) leaf) ops .init).map
        (LaneState.map (eval A ρ)) :=
  laneRun_map (vecStep_eval A ρ) ops .init

theorem laneRun_scal_eval (A : Interp β τ V) (ρ : Nat → V) (ops : List (LaneOp β τ)) :
    laneRun (scalStep A ρ) ops .init =
      (laneRun (scalStep (free β τ) leaf) ops .init).map
        (LaneState.map (eval A ρ)) :=
  laneRun_map (scalStep_eval A ρ) ops .init

/-- The scalar-wise reading runs whenever the vector-wise one does, and loads as much. -/
theorem laneRun_scal_of_vec [DecidableEq β] [DecidableEq τ] {A : Interp β τ V} {ρ : Nat → V}
    {ops : List (LaneOp β τ)} {v : LaneState V} (h : laneRun (vecStep A ρ) ops .init = some v) :
    ∃ s, laneRun (scalStep A ρ) ops .init = some s ∧ s.cursor = v.cursor := by
  rw [laneRun_vec_eval] at h
  rcases related_run related_init ops with ⟨-, hv⟩ | ⟨v', s', f, -, hv, hs, hrel⟩
  · rw [hv] at h
    cases h
  · rw [hv] at h
    cases h
    exact ⟨s'.map (eval A ρ), by rw [laneRun_scal_eval, hs]; rfl, hrel.cursor.symm⟩

/-- **The two readings agree over a large enough carrier exactly when the check does not find a
store that differs.** -/
theorem agrees_iff [DecidableEq β] [DecidableEq τ] [Fintype V] [Nonempty V] {ops : List (LaneOp β τ)}
    (hcard : 2 * laneWork ops ≤ Fintype.card V) : Agrees V ops ↔ flow ops ≠ some false := by
  rcases related_run related_init ops with ⟨hf, hv⟩ | ⟨v, s, f, hf, hv, hs, hrel⟩
  · -- underflow: nothing to compare
    refine ⟨fun _ => by simp [flow, hf], fun _ A ρ v h => ?_⟩
    rw [laneRun_vec_eval, hv] at h
    cases h
  · have hflow : flow ops ≠ some false ↔ v.out = s.out := by
      rw [← hrel.agree]
      simp [flow, hf]
    rw [hflow]
    constructor
    · -- two different stored terms are told apart in the carrier
      intro hag
      by_contra hne
      obtain ⟨i, hi⟩ : ∃ i : Nat, v.out[i]? ≠ s.out[i]? := by
        by_contra hall
        push Not at hall
        exact hne (ext_getElem? hall)
      have hiv : i < v.out.length := by
        by_contra hge
        exact hi (by rw [List.getElem?_eq_none (by omega),
          List.getElem?_eq_none (by rw [← hrel.out_length]; omega)])
      have his : i < s.out.length := hrel.out_length ▸ hiv
      have htu : v.out[i] ≠ s.out[i] := fun heq => hi (by
        rw [getElem?_eq_getElem hiv, getElem?_eq_getElem his, heq])
      have hbv := stateSize_run (fun _ _ _ => stateSize_vecStep) hv
      have hbs := stateSize_run (fun _ _ _ => stateSize_scalStep) hs
      have htv := size_le_sizes (getElem_mem hiv)
      have hts := size_le_sizes (getElem_mem his)
      simp only [stateSize, LaneState.init, sizes_nil] at hbv hbs
      obtain ⟨A, ρ, hsep⟩ := Term.exists_interp_ne (V := V) htu (by omega)
      obtain ⟨s1, hs1, hout⟩ :=
        hag A ρ (v.map (eval A ρ)) (by rw [laneRun_vec_eval, hv]; rfl)
      rw [laneRun_scal_eval, hs] at hs1
      cases hs1
      have hget := congrArg (·[i]?) hout
      simp only [LaneState.map, List.getElem?_map, getElem?_eq_getElem hiv,
        getElem?_eq_getElem his, Option.map_some, Option.some.injEq] at hget
      exact hsep hget.symm
    · intro hout A ρ w hw
      rw [laneRun_vec_eval, hv] at hw
      cases hw
      refine ⟨s.map (eval A ρ), by rw [laneRun_scal_eval, hs]; rfl, ?_⟩
      simp only [LaneState.map, hout]

end TensorWasm.Lib
