import Mathlib.Data.List.Basic

/-!
# Definition before use in straight-line code

A line of straight-line code reads some registers and then writes some. Such code is defined before use if
every register that a line reads was written by a line before it.
-/

namespace TensorWasm.Lib

variable {R : Type}

/-- What one line does to the registers. -/
structure Access (R : Type) where
  reads : List R
  writes : List R
  deriving DecidableEq

/-- The registers that the lines write. -/
def written (lines : List (Access R)) : List R := lines.flatMap Access.writes

/-- Every register that a line reads is known or was written by a line before it. -/
def DefinedFrom (known : List R) : List (Access R) → Prop
  | [] => True
  | a :: lines => (∀ r ∈ a.reads, r ∈ known) ∧ DefinedFrom (known ++ a.writes) lines

instance DefinedFrom.instDecidable [DecidableEq R] :
    ∀ (known : List R) (lines : List (Access R)), Decidable (DefinedFrom known lines)
  | _, [] => .isTrue trivial
  | known, a :: lines =>
    have := DefinedFrom.instDecidable (known ++ a.writes) lines
    inferInstanceAs (Decidable (_ ∧ _))

theorem written_append (lines more : List (Access R)) : written (lines ++ more) = written lines ++ written more :=
  List.flatMap_append

theorem definedFrom_append {known : List R} {lines more : List (Access R)} :
    DefinedFrom known (lines ++ more) ↔ DefinedFrom known lines ∧ DefinedFrom (known ++ written lines) more := by
  induction lines generalizing known with
  | nil => simp [DefinedFrom, written]
  | cons a lines ih =>
    have hwritten : written (a :: lines) = a.writes ++ written lines := rfl
    simp only [List.cons_append, DefinedFrom, ih, hwritten, List.append_assoc, and_assoc]

end TensorWasm.Lib
