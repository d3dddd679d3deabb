import Mathlib.Data.List.TakeWhile

/-!
# Scanning for the first occurrence of a pattern

`afterFirst` is substring search on lists, returning what follows the match. Text that never shows
the pattern's first two symbols next to each other, nor ends on the first, is skipped as a whole
(`ClearOf`); that is enough for texts assembled from fixed lines and identifiers.
-/

namespace TensorWasm.Lib

variable {α : Type} [DecidableEq α]

/-- What follows the first occurrence of a pattern. -/
def afterFirst (pattern : List α) : List α → Option (List α)
  | [] => if pattern = [] then some [] else none
  | c :: cs =>
    if pattern.isPrefixOf (c :: cs) then some ((c :: cs).drop pattern.length)
    else afterFirst pattern cs

/-- Every `p` is followed by something other than `q`. -/
def clearOf (p q : α) : List α → Bool
  | [] => true
  | c :: cs => (c != p || cs.head?.any (· != q)) && clearOf p q cs

theorem afterFirst_match (pattern rest : List α) (hpattern : pattern ≠ []) :
    afterFirst pattern (pattern ++ rest) = some rest := by
  obtain ⟨c, cs, rfl⟩ := List.exists_cons_of_ne_nil hpattern
  have hprefix : (c :: cs).isPrefixOf (c :: (cs ++ rest)) = true :=
    List.isPrefixOf_iff_prefix.mpr (List.prefix_append (c :: cs) rest)
  rw [List.cons_append, afterFirst, if_pos hprefix]
  simp

/-- Text in which no match can start is skipped. -/
theorem afterFirst_append_of_clearOf {p q : α} {ps a : List α} (h : clearOf p q a) (b : List α) :
    afterFirst (p :: q :: ps) (a ++ b) = afterFirst (p :: q :: ps) b := by
  induction a with
  | nil => rfl
  | cons c cs ih =>
    rw [clearOf, Bool.and_eq_true] at h
    have hmiss : ¬ (p :: q :: ps).isPrefixOf (c :: (cs ++ b)) := by
      intro hp
      -- a match here would put `q` right after a `p` of the skipped text
      cases cs with
      | nil | cons d ds => simp_all
    rw [List.cons_append, afterFirst, if_neg hmiss]
    exact ih h.2

theorem clearOf_append {p q : α} {a b : List α} (ha : clearOf p q a) (hb : clearOf p q b) : clearOf p q (a ++ b) := by
  induction a with
  | nil => exact hb
  | cons c cs ih =>
    rw [clearOf, Bool.and_eq_true] at ha
    rw [List.cons_append, clearOf, Bool.and_eq_true]
    refine ⟨?_, ih ha.2⟩
    cases cs with
    | nil =>
      have hc : (c != p) = true := by simpa using ha.1
      simp [hc]
    | cons d ds => exact ha.1

theorem clearOf_flatMap {β : Type} {p q : α} {f : β → List α} {pieces : List β}
    (h : ∀ piece ∈ pieces, clearOf p q (f piece)) : clearOf p q (pieces.flatMap f) := by
  induction pieces with
  | nil => rfl
  | cons piece pieces ih =>
    rw [List.forall_mem_cons] at h
    exact clearOf_append h.1 (ih h.2)

theorem clearOf_of_notMem {p q : α} {a : List α} (h : p ∉ a) : clearOf p q a := by
  induction a with
  | nil => rfl
  | cons c cs ih =>
    rw [List.mem_cons, not_or] at h
    have hc : (c != p) = true := by simpa using Ne.symm h.1
    rw [clearOf, hc, Bool.true_or, Bool.true_and]
    exact ih h.2

omit [DecidableEq α] in
/-- The longest run of accepted symbols, when a refused one follows it. -/
theorem takeWhile_append_stop {f : α → Bool} {a : List α} {c : α} (ha : ∀ x ∈ a, f x) (hc : ¬ f c)
    (b : List α) : (a ++ c :: b).takeWhile f = a := by
  rw [List.takeWhile_append_of_pos ha, List.takeWhile_cons_of_neg hc, List.append_nil]

end TensorWasm.Lib
