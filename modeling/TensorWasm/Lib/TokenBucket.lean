import Mathlib.Algebra.Order.Field.Basic
import Mathlib.Tactic.Linarith
import Mathlib.Tactic.Ring

/-!
# Token buckets

A bucket holds a level of permits and the time it was last refilled. Refilling at a later time adds permits
at a fixed rate up to a limit, and a permit is taken when a whole one is there. If times never go back, no
window of time sees more permits taken than the limit and what the rate gives over its length.

`Window` is the invariant that carries this for one window `[lo, hi]`: it bounds the permits taken so far
together with the level, with the time of the last refill in the place of the window's end.
-/

namespace TensorWasm.Lib

variable {K : Type} [Field K] [LinearOrder K] [IsStrictOrderedRing K]

structure TokenBucket (K : Type) where
  level : K
  anchor : K

namespace TokenBucket

def refill (burst rate : K) (b : TokenBucket K) (t : K) : TokenBucket K :=
  ⟨min (b.level + rate * (t - b.anchor)) burst, t⟩

def take (b : TokenBucket K) : TokenBucket K := ⟨b.level - 1, b.anchor⟩

end TokenBucket

/-- `count` permits have been taken from the bucket at times in `[lo, hi]`. -/
structure Window (burst rate lo hi : K) (b : TokenBucket K) (count : Nat) : Prop where
  level_nonneg : 0 ≤ b.level
  before : b.anchor < lo → count = 0
  during : lo ≤ b.anchor → b.anchor ≤ hi → count + b.level ≤ burst + rate * (b.anchor - lo)
  after : hi < b.anchor → (count : K) ≤ burst + rate * (hi - lo)

namespace Window

variable {burst rate lo hi : K} {b : TokenBucket K} {count : Nat}

/-- A full bucket from which nothing has been taken. -/
theorem start (hburst : 0 ≤ burst) (hrate : 0 ≤ rate) (hlo : lo ≤ hi) (t : K) :
    Window burst rate lo hi ⟨burst, t⟩ 0 where
  level_nonneg := hburst
  before := fun _ => rfl
  during := by
    intro hstart _
    have hgain : 0 ≤ rate * (t - lo) := mul_nonneg hrate (sub_nonneg.mpr hstart)
    simpa using hgain
  after := by
    intro _
    have hgain : 0 ≤ rate * (hi - lo) := mul_nonneg hrate (sub_nonneg.mpr hlo)
    simpa using add_nonneg hburst hgain

variable (h : Window burst rate lo hi b count)

include h

/-- What a window has seen is bounded whenever the bucket was last refilled. -/
theorem bound (hburst : 0 ≤ burst) (hrate : 0 ≤ rate) (hlo : lo ≤ hi) : (count : K) ≤ burst + rate * (hi - lo) := by
  have hgain : 0 ≤ rate * (hi - lo) := mul_nonneg hrate (sub_nonneg.mpr hlo)
  rcases lt_or_ge b.anchor lo with hbefore | hstart
  · rw [h.before hbefore, Nat.cast_zero]
    exact add_nonneg hburst hgain
  · rcases le_or_gt b.anchor hi with hend | hafter
    · have hduring := h.during hstart hend
      have hrest : rate * (b.anchor - lo) ≤ rate * (hi - lo) :=
        mul_le_mul_of_nonneg_left (sub_le_sub_right hend lo) hrate
      linarith [h.level_nonneg]
    · exact h.after hafter

/-- Refilling at a time that is not earlier keeps the invariant. -/
theorem refill (hburst : 0 ≤ burst) (hrate : 0 ≤ rate)
    (hlo : lo ≤ hi) {t : K} (ht : b.anchor ≤ t) : Window burst rate lo hi (b.refill burst rate t) count where
  level_nonneg := by
    have hgain : 0 ≤ rate * (t - b.anchor) := mul_nonneg hrate (sub_nonneg.mpr ht)
    exact le_min (add_nonneg h.level_nonneg hgain) hburst
  before := fun hbefore => h.before (lt_of_le_of_lt ht hbefore)
  during := by
    intro hstart hend
    change lo ≤ t at hstart
    change t ≤ hi at hend
    show (count : K) + min (b.level + rate * (t - b.anchor)) burst ≤ burst + rate * (t - lo)
    rcases lt_or_ge b.anchor lo with hbefore | hinside
    · -- the first refill in the window: nothing has been taken in it yet
      have hgain : 0 ≤ rate * (t - lo) := mul_nonneg hrate (sub_nonneg.mpr hstart)
      rw [h.before hbefore, Nat.cast_zero]
      linarith [min_le_right (b.level + rate * (t - b.anchor)) burst]
    · have hduring := h.during hinside (ht.trans hend)
      have hsplit : rate * (t - lo) = rate * (b.anchor - lo) + rate * (t - b.anchor) := by ring
      linarith [min_le_left (b.level + rate * (t - b.anchor)) burst]
  after := fun _ => h.bound hburst hrate hlo

/-- A permit taken outside the window is not counted. -/
theorem take_outside (hlevel : 1 ≤ b.level)
    (hout : ¬ (lo ≤ b.anchor ∧ b.anchor ≤ hi)) : Window burst rate lo hi b.take count where
  level_nonneg := sub_nonneg.mpr hlevel
  before := h.before
  during := fun hstart hend => absurd ⟨hstart, hend⟩ hout
  after := h.after

/-- A permit taken inside the window moves from the level to the count. -/
theorem take_inside (hlevel : 1 ≤ b.level)
    (hstart : lo ≤ b.anchor) (hend : b.anchor ≤ hi) : Window burst rate lo hi b.take (count + 1) where
  level_nonneg := sub_nonneg.mpr hlevel
  before := fun hbefore => absurd hbefore (not_lt_of_ge hstart)
  during := by
    intro _ _
    have hduring := h.during hstart hend
    show ((count + 1 : Nat) : K) + (b.level - 1) ≤ burst + rate * (b.anchor - lo)
    push_cast
    linarith
  after := fun hafter => absurd hafter (not_lt_of_ge hend)

end Window

end TensorWasm.Lib
