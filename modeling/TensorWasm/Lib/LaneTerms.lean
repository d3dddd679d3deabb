import TensorWasm.Lib.LaneStack

/-!
# Lane programs over terms

What the one-lane operations and the lane-wise operations do to stacks of terms: which leftmost
leaves the results have, which slots are untouched, how many nodes are added, and that the
scalar-wise stack stays `Ordered`.
-/

namespace TensorWasm.Lib

open List
open Term (bin first free leaf size ter)
open LaneOp (lanes)

variable {β τ V : Type}

/-! ## Ordered stacks -/

/-- Every leaf of a lower slot lies before the leftmost leaf of a higher one, and no leaf has been
loaded at or past `c`. -/
structure Ordered (c : Nat) (st : List (Term β τ)) : Prop where
  below : st.Pairwise fun up low => ∀ x ∈ low.leaves, x < up.first
  bounded : ∀ t ∈ st, ∀ x ∈ t.leaves, x < c

namespace Ordered

variable {c : Nat} {st : List (Term β τ)}

theorem nil : Ordered c ([] : List (Term β τ)) := ⟨List.Pairwise.nil, by simp⟩

theorem drop (h : Ordered c st) (n : Nat) : Ordered c (st.drop n) :=
  ⟨h.below.drop, fun t ht => h.bounded t (mem_of_mem_drop ht)⟩

/-- The slot at `j` is below the slot at `i` when `i < j`. -/
theorem lt_first (h : Ordered c st) {i j : Nat} {t u : Term β τ} (hij : i < j)
    (ht : st[i]? = some t) (hu : st[j]? = some u) : ∀ x ∈ u.leaves, x < t.first := by
  obtain ⟨hi, rfl⟩ := List.getElem?_eq_some_iff.mp ht
  obtain ⟨hj, rfl⟩ := List.getElem?_eq_some_iff.mp hu
  exact pairwise_iff_getElem.mp h.below i j hi hj hij

theorem load (h : Ordered c st) (n : Nat) : Ordered (c + n) (((List.range' c n).map leaf).reverse ++ st) := by
  refine ⟨pairwise_append.mpr ⟨?_, h.below, ?_⟩, ?_⟩
  · rw [pairwise_reverse, pairwise_map]
    refine (pairwise_lt_range' ..).imp ?_
    intro a b hab x hx
    simp only [Term.leaves, mem_singleton] at hx
    rw [hx]
    exact hab
  · intro t ht u hu x hx
    simp only [mem_reverse, mem_map, mem_range'_1] at ht
    obtain ⟨i, hi, rfl⟩ := ht
    exact Nat.lt_of_lt_of_le (h.bounded u hu x hx) hi.1
  · intro t ht x hx
    rcases mem_append.mp ht with ht | ht
    · simp only [mem_reverse, mem_map, mem_range'_1] at ht
      obtain ⟨i, hi, rfl⟩ := ht
      simp only [Term.leaves, mem_singleton] at hx
      omega
    · exact Nat.lt_of_lt_of_le (h.bounded t ht x hx) (Nat.le_add_right c n)

end Ordered

/-- The total size of a list of terms. -/
def sizes (ts : List (Term β τ)) : Nat := (ts.map size).sum

@[simp] theorem sizes_nil : sizes ([] : List (Term β τ)) = 0 := rfl

@[simp] theorem sizes_cons (t : Term β τ) (ts : List (Term β τ)) : sizes (t :: ts) = t.size + sizes ts := rfl

@[simp] theorem sizes_append (ts us : List (Term β τ)) : sizes (ts ++ us) = sizes ts + sizes us := by
  simp [sizes]

@[simp] theorem sizes_reverse (ts : List (Term β τ)) : sizes ts.reverse = sizes ts := by
  simp [sizes, sum_reverse]

theorem sizes_take_add_drop (n : Nat) (ts : List (Term β τ)) : sizes (ts.take n) + sizes (ts.drop n) = sizes ts := by
  rw [← sizes_append, take_append_drop]

theorem size_le_sizes {t : Term β τ} {ts : List (Term β τ)} (h : t ∈ ts) : t.size ≤ sizes ts :=
  le_sum_of_mem (mem_map_of_mem h)

/-! ## One lane, and many -/

/-- What the proofs use of a one-lane operation: it replaces `k + 1` slots by one whose leftmost
leaf is that of the lowest, and adds one node. -/
structure IsLane (k : Nat) (lane : List (Term β τ) → Option (List (Term β τ))) : Prop where
  shape : ∀ st, k < st.length → ∃ y, lane st = some (y :: st.drop (k + 1))
  firsts : ∀ st st', lane st = some st' → st'.map first = (st.map first).drop k
  ordered : ∀ c st st', Ordered c st → lane st = some st' → Ordered c st'
  sizes : ∀ st st', lane st = some st' → sizes st' = sizes st + 1

theorem isLane_bin (o : β) : IsLane 1 (binLane (free β τ) o) where
  shape st h := by
    rcases st with _ | ⟨b, _ | ⟨a, st⟩⟩
    · simp at h
    · simp at h
    · exact ⟨.bin o a b, rfl⟩
  firsts st st' h := by
    rcases st with _ | ⟨b, _ | ⟨a, st⟩⟩ <;> simp only [binLane, reduceCtorEq, Option.some.injEq] at h
    rw [← h]
    rfl
  ordered c st st' ho h := by
    rcases st with _ | ⟨b, _ | ⟨a, st⟩⟩ <;> simp only [binLane, reduceCtorEq, Option.some.injEq] at h
    rw [← h]
    obtain ⟨hbelow, hbound⟩ := ho
    simp only [pairwise_cons] at hbelow
    refine ⟨pairwise_cons.mpr ⟨hbelow.2.1, hbelow.2.2⟩, ?_⟩
    intro t ht x hx
    rcases mem_cons.mp ht with rfl | ht
    · rcases mem_append.mp hx with hx | hx
      · exact hbound a (by simp) x hx
      · exact hbound b (by simp) x hx
    · exact hbound t (by simp [ht]) x hx
  sizes st st' h := by
    rcases st with _ | ⟨b, _ | ⟨a, st⟩⟩ <;> simp only [binLane, reduceCtorEq, Option.some.injEq] at h
    rw [← h]
    simp only [free, sizes_cons, size]
    omega

theorem isLane_ter (o : τ) : IsLane 2 (terLane (free β τ) o) where
  shape st h := by
    rcases st with _ | ⟨c, _ | ⟨b, _ | ⟨a, st⟩⟩⟩
    · simp at h
    · simp at h
    · simp at h
    · exact ⟨.ter o a b c, rfl⟩
  firsts st st' h := by
    rcases st with _ | ⟨c, _ | ⟨b, _ | ⟨a, st⟩⟩⟩ <;>
      simp only [terLane, reduceCtorEq, Option.some.injEq] at h
    rw [← h]
    rfl
  ordered d st st' ho h := by
    rcases st with _ | ⟨c, _ | ⟨b, _ | ⟨a, st⟩⟩⟩ <;>
      simp only [terLane, reduceCtorEq, Option.some.injEq] at h
    rw [← h]
    obtain ⟨hbelow, hbound⟩ := ho
    simp only [pairwise_cons] at hbelow
    refine ⟨pairwise_cons.mpr ⟨hbelow.2.2.1, hbelow.2.2.2⟩, ?_⟩
    intro t ht x hx
    rcases mem_cons.mp ht with rfl | ht
    · rcases mem_append.mp hx with hx | hx
      · rcases mem_append.mp hx with hx | hx
        · exact hbound a (by simp) x hx
        · exact hbound b (by simp) x hx
      · exact hbound c (by simp) x hx
    · exact hbound t (by simp [ht]) x hx
  sizes st st' h := by
    rcases st with _ | ⟨c, _ | ⟨b, _ | ⟨a, st⟩⟩⟩ <;>
      simp only [terLane, reduceCtorEq, Option.some.injEq] at h
    rw [← h]
    simp only [free, sizes_cons, size]
    omega

section Repeat

variable {k : Nat} {lane : List (Term β τ) → Option (List (Term β τ))}

/-- The last lane first. -/
theorem repeatLane_succ (n : Nat) (st : List (Term β τ)) :
    repeatLane lane (n + 1) st = (repeatLane lane n st).bind lane := by
  induction n generalizing st with
  | zero => simp only [repeatLane, Option.bind_some, Option.bind_fun_some]
  | succ n ih =>
    rw [repeatLane]
    simp only [repeatLane, Option.bind_assoc]
    congr 1
    funext st1
    exact ih st1

variable {n : Nat} {st : List (Term β τ)}

theorem repeatLane_shape (h : IsLane k lane) (hn : k * n < st.length) :
    ∃ y, repeatLane lane n st = some (y :: st.drop (k * n + 1)) := by
  induction n with
  | zero =>
    rcases st with _ | ⟨y, st⟩
    · simp at hn
    · exact ⟨y, rfl⟩
  | succ n ih =>
    rw [Nat.mul_succ] at hn
    obtain ⟨y, hy⟩ := ih (by omega)
    obtain ⟨z, hz⟩ := h.shape (y :: st.drop (k * n + 1)) (by simp; omega)
    refine ⟨z, ?_⟩
    rw [repeatLane_succ, hy, Option.bind_some, hz, drop_succ_cons, drop_drop]
    congr 3
    rw [Nat.mul_succ]
    omega

theorem repeatLane_isSome (h : IsLane k lane) (hn : (k + 1) * n ≤ st.length)
    : ∃ st', repeatLane lane n st = some st' := by
  rcases n with _ | n
  · exact ⟨st, rfl⟩
  · have hk : (k + 1) * (n + 1) = k * (n + 1) + 1 + n := by ring
    obtain ⟨y, hy⟩ := repeatLane_shape h (show k * (n + 1) < st.length by omega)
    exact ⟨_, hy⟩

variable {st st' : List (Term β τ)}

/-- A property every lane keeps is kept by the loop. -/
theorem repeatLane_keeps {P : List (Term β τ) → Prop} (hP : ∀ st st', P st → lane st = some st' → P st') (hst : P st)
    (h : repeatLane lane n st = some st') : P st' := by
  induction n generalizing st with
  | zero =>
    cases h
    exact hst
  | succ n ih =>
    obtain ⟨st1, h1, h2⟩ := Option.bind_eq_some_iff.mp h
    exact ih (hP st st1 hst h1) h2

variable (hl : IsLane k lane)

include hl

theorem repeatLane_firsts (h : repeatLane lane n st = some st') :
    st'.map first = (st.map first).drop (k * n) := by
  induction n generalizing st with
  | zero =>
    cases h
    rfl
  | succ n ih =>
    obtain ⟨st1, h1, h2⟩ := Option.bind_eq_some_iff.mp h
    rw [ih h2, hl.firsts st st1 h1, drop_drop, Nat.mul_succ, Nat.add_comm]

theorem repeatLane_sizes (h : repeatLane lane n st = some st') : sizes st' = sizes st + n := by
  induction n generalizing st with
  | zero =>
    cases h
    rfl
  | succ n ih =>
    obtain ⟨st1, h1, h2⟩ := Option.bind_eq_some_iff.mp h
    rw [ih h2, hl.sizes st st1 h1]
    omega

/-- Below the results the stack is untouched. -/
theorem repeatLane_drop (hn : (k + 1) * n ≤ st.length) (h : repeatLane lane n st = some st') :
    st'.drop n = st.drop ((k + 1) * n) := by
  rcases n with _ | n
  · cases h
    rfl
  · have hk : (k + 1) * (n + 1) = k * (n + 1) + 1 + n := by ring
    obtain ⟨y, hy⟩ := repeatLane_shape hl (show k * (n + 1) < st.length by omega)
    obtain rfl := Option.mem_unique h hy
    rw [drop_succ_cons, drop_drop, hk]

/-- The value the loop leaves on top after `n` lanes starts at the leftmost leaf of slot `k * n`. -/
theorem first_repeatLane {y z : Term β τ} {s : List (Term β τ)}
    (hy : repeatLane lane n s = some (y :: st)) (hz : s[k * n]? = some z) : y.first = z.first := by
  have := congrArg (·[0]?) (repeatLane_firsts hl hy)
  simpa [List.getElem?_drop, hz] using this

/-- The loop, seen from its last lane. -/
theorem repeatLane_last {s s' : List (Term β τ)} (hn : k * n < s.length) (hs' : repeatLane lane (n + 1) s = some s') :
    ∃ y, repeatLane lane n s = some (y :: s.drop (k * n + 1)) ∧ lane (y :: s.drop (k * n + 1)) = some s' := by
  obtain ⟨y, hy⟩ := repeatLane_shape hl hn
  rw [repeatLane_succ, hy, Option.bind_some] at hs'
  exact ⟨y, hy, hs'⟩

end Repeat

/-! ## Lane-wise results -/

section Zip

variable {n : Nat} {st : List V}

theorem zipBin_drop {f : V → V → V} (h : 2 * n ≤ st.length) : (zipBin f n st).drop n = st.drop (2 * n) := by
  have hlen : (List.zipWith f (st.drop n |>.take n) (st.take n)).length = n := by
    simp only [length_zipWith, length_take, length_drop]
    omega
  exact drop_left' hlen

theorem zipTer_eq (f : V → V → V → V) (n : Nat) (st : List V) :
    zipTer f n st = List.zipWith (fun g c => g c)
      (List.zipWith f (st.drop (2 * n) |>.take n) (st.drop n |>.take n)) (st.take n) ++ st.drop (3 * n) := by
  rw [zipTer, zipWith_zipWith_left]

theorem zipTer_drop {f : V → V → V → V} (h : 3 * n ≤ st.length) : (zipTer f n st).drop n = st.drop (3 * n) := by
  rw [zipTer_eq]
  refine drop_left' ?_
  simp only [length_zipWith, length_take, length_drop]
  omega

/-- A lane-wise result combines the two lanes at its own position. -/
theorem getElem?_zipBin {f : V → V → V} (h : 2 * n ≤ st.length) {i : Nat} {t : V} (hi : i < n)
    (ht : (zipBin f n st)[i]? = some t) : ∃ a b, st[n + i]? = some a ∧ st[i]? = some b ∧ t = f a b := by
  have ha : n + i < st.length := by omega
  have hb : i < st.length := by omega
  refine ⟨st[n + i], st[i], getElem?_eq_getElem ha, getElem?_eq_getElem hb, ?_⟩
  rw [zipBin, List.getElem?_append_left (by simp; omega), List.getElem?_zipWith] at ht
  simpa [List.getElem?_take, hi, getElem?_eq_getElem ha, getElem?_eq_getElem hb]
    using ht.symm

theorem getElem?_zipTer {f : V → V → V → V} (h : 3 * n ≤ st.length) {i : Nat} {t : V} (hi : i < n)
    (ht : (zipTer f n st)[i]? = some t) :
    ∃ a b c, st[2 * n + i]? = some a ∧ st[n + i]? = some b ∧ st[i]? = some c ∧ t = f a b c := by
  have ha : 2 * n + i < st.length := by omega
  have hb : n + i < st.length := by omega
  have hc : i < st.length := by omega
  refine ⟨st[2 * n + i], st[n + i], st[i], getElem?_eq_getElem ha,
    getElem?_eq_getElem hb, getElem?_eq_getElem hc, ?_⟩
  rw [zipTer_eq, List.getElem?_append_left (by simp; omega), List.getElem?_zipWith,
    List.getElem?_zipWith] at ht
  simpa [List.getElem?_take, hi, getElem?_eq_getElem ha, getElem?_eq_getElem hb,
    getElem?_eq_getElem hc] using ht.symm

end Zip

theorem take_drop_append_drop {k m n : Nat} (h : m = k + n) (st : List V) :
    (st.drop k).take n ++ st.drop m = st.drop k := by
  rw [h, ← drop_drop, take_append_drop]

/-- The results of a lane-wise operation inherit the leftmost leaves of the lowest operand, and
add one node each. -/
theorem zipWith_bin_spec (o : β) {xs ys : List (Term β τ)} (h : xs.length = ys.length) :
    (List.zipWith (bin o) xs ys).map first = xs.map first ∧
      sizes (List.zipWith (bin o) xs ys) = xs.length + sizes xs + sizes ys := by
  induction xs generalizing ys with
  | nil =>
    rcases ys with _ | ⟨y, ys⟩
    · exact ⟨rfl, rfl⟩
    · simp at h
  | cons x xs ih =>
    rcases ys with _ | ⟨y, ys⟩
    · simp at h
    · obtain ⟨h1, h2⟩ := ih (Nat.succ.inj h)
      simp only [zipWith_cons_cons, map_cons, h1, h2, first, sizes_cons, size, length_cons]
      exact ⟨trivial, by omega⟩

theorem zipWith3_ter_spec (o : τ) {xs ys zs : List (Term β τ)} (hy : xs.length = ys.length)
    (hz : xs.length = zs.length) :
    (List.zipWith3 (ter o) xs ys zs).map first = xs.map first ∧
      sizes (List.zipWith3 (ter o) xs ys zs) = xs.length + sizes xs + sizes ys + sizes zs := by
  induction xs generalizing ys zs with
  | nil =>
    rcases ys with _ | ⟨y, ys⟩
    · rcases zs with _ | ⟨z, zs⟩
      · exact ⟨rfl, rfl⟩
      · simp at hz
    · simp at hy
  | cons x xs ih =>
    rcases ys with _ | ⟨y, ys⟩
    · simp at hy
    rcases zs with _ | ⟨z, zs⟩
    · simp at hz
    obtain ⟨h1, h2⟩ := ih (Nat.succ.inj hy) (Nat.succ.inj hz)
    simp only [List.zipWith3, map_cons, h1, h2, first, sizes_cons, size, length_cons]
    exact ⟨trivial, by omega⟩

theorem zipBin_spec (o : β) {n : Nat} {st : List (Term β τ)} (h : 2 * n ≤ st.length) :
    (zipBin (bin o) n st).map first = (st.map first).drop (1 * n) ∧
      sizes (zipBin (bin o) n st) = sizes st + n := by
  have hx : ((st.drop n).take n).length = n := by simp; omega
  have hy : (st.take n).length = n := by simp; omega
  obtain ⟨h1, h2⟩ := zipWith_bin_spec o (hx.trans hy.symm)
  have hsplit := take_drop_append_drop (Nat.two_mul n) st
  constructor
  · rw [zipBin, map_append, h1, ← map_append, hsplit, Nat.one_mul, map_drop]
  · have hs1 := congrArg sizes hsplit
    have hs2 := sizes_take_add_drop n st
    rw [sizes_append] at hs1
    rw [zipBin, sizes_append, h2, hx]
    omega

theorem zipTer_spec (o : τ) {n : Nat} {st : List (Term β τ)} (h : 3 * n ≤ st.length) :
    (zipTer (ter o) n st).map first = (st.map first).drop (2 * n) ∧
      sizes (zipTer (ter o) n st) = sizes st + n := by
  have hx : ((st.drop (2 * n)).take n).length = n := by simp; omega
  have hy : ((st.drop n).take n).length = n := by simp; omega
  have hz : (st.take n).length = n := by simp; omega
  obtain ⟨h1, h2⟩ := zipWith3_ter_spec o (hx.trans hy.symm) (hx.trans hz.symm)
  have hsplit1 := take_drop_append_drop (Nat.two_mul n) st
  have hsplit2 := take_drop_append_drop (show 3 * n = 2 * n + n by omega) st
  constructor
  · rw [zipTer, map_append, h1, ← map_append, hsplit2, map_drop]
  · have hs1 := congrArg sizes hsplit1
    have hs2 := congrArg sizes hsplit2
    have hs0 := sizes_take_add_drop n st
    rw [sizes_append] at hs1 hs2
    rw [zipTer, sizes_append, h2, hx]
    omega

/-! ## Sizes along a run -/

/-- The work of a program: the number of lanes it touches. -/
def laneWork (ops : List (LaneOp β τ)) : Nat := (ops.map lanes).sum

/-- All the terms a state holds. -/
def stateSize (s : LaneState (Term β τ)) : Nat := sizes s.stack + sizes s.out

theorem sizes_leaves (is : List Nat) : sizes (is.map (leaf : Nat → Term β τ)) = is.length := by
  induction is with
  | nil => rfl
  | cons i is ih =>
    simp only [map_cons, sizes_cons, ih, size, length_cons]
    omega

theorem stateSize_load (n : Nat) (s : LaneState (Term β τ)) :
    stateSize (loadLanes leaf n s) = stateSize s + n := by
  simp only [stateSize, loadLanes, sizes_append, sizes_reverse, sizes_leaves, length_range']
  omega

theorem stateSize_vecStep {op : LaneOp β τ} {v v' : LaneState (Term β τ)}
    (h : vecStep (free β τ) leaf op v = some v') : stateSize v' ≤ stateSize v + op.lanes := by
  cases op with
  | load n =>
    cases h
    exact (stateSize_load n v).le
  | bin o n =>
    obtain ⟨hn, h⟩ := Option.ite_none_right_eq_some.mp h
    cases h
    have := (zipBin_spec o hn).2
    simp only [stateSize, free, lanes]
    omega
  | ter o n =>
    obtain ⟨hn, h⟩ := Option.ite_none_right_eq_some.mp h
    cases h
    have := (zipTer_spec o hn).2
    simp only [stateSize, free, lanes]
    omega
  | store n =>
    obtain ⟨hn, h⟩ := Option.ite_none_right_eq_some.mp h
    cases h
    have := sizes_take_add_drop n v.stack
    simp only [stateSize, sizes_append, sizes_reverse, lanes]
    omega

theorem stateSize_scalStep {op : LaneOp β τ} {s s' : LaneState (Term β τ)}
    (h : scalStep (free β τ) leaf op s = some s') : stateSize s' ≤ stateSize s + op.lanes := by
  cases op with
  | load n =>
    rw [scalStep_load] at h
    cases h
    exact (stateSize_load n s).le
  | bin o n =>
    rw [scalStep_bin] at h
    obtain ⟨st, hst, rfl⟩ := Option.map_eq_some_iff.mp h
    have := repeatLane_sizes (isLane_bin o) hst
    simp only [stateSize, lanes]
    omega
  | ter o n =>
    rw [scalStep_ter] at h
    obtain ⟨st, hst, rfl⟩ := Option.map_eq_some_iff.mp h
    have := repeatLane_sizes (isLane_ter o) hst
    simp only [stateSize, lanes]
    omega
  | store n =>
    rw [scalStep_store] at h
    obtain ⟨hn, h⟩ := Option.ite_none_right_eq_some.mp h
    cases h
    have := sizes_take_add_drop n s.stack
    simp only [stateSize, sizes_append, lanes]
    omega

theorem stateSize_run {step : LaneOp β τ → LaneState (Term β τ) → Option (LaneState (Term β τ))}
    (hstep : ∀ op s s', step op s = some s' → stateSize s' ≤ stateSize s + op.lanes) {ops : List (LaneOp β τ)}
    {s s' : LaneState (Term β τ)} (h : laneRun step ops s = some s') : stateSize s' ≤ stateSize s + laneWork ops := by
  induction ops generalizing s with
  | nil =>
    cases h
    exact Nat.le_add_right _ _
  | cons op ops ih =>
    obtain ⟨s1, h1, h2⟩ := Option.bind_eq_some_iff.mp h
    have hs1 := hstep op s s1 h1
    have hs2 := ih h2
    simp only [laneWork, map_cons, sum_cons] at hs2 ⊢
    omega

end TensorWasm.Lib
