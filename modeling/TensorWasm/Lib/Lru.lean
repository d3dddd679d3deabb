import Mathlib.Data.List.Basic

/-!
# A least-recently-used queue

`Lru` is the queue part of an LRU cache: keys without repetition, most recent first, at most `cap` of
them. Pushing a key that is there moves it to the front; pushing a new key into a full queue drops
the least recent one. Both report the key that had to give way, as the usual implementations do.
-/

namespace TensorWasm.Lib

open List

/-- A queue of distinct keys, most recent first, with room for at least one. -/
structure Lru (κ : Type) where
  cap : Nat
  order : List κ
  pos : 0 < cap
  nodup : order.Nodup
  bounded : order.length ≤ cap

namespace Lru

variable {κ : Type}

def empty (cap : Nat) (pos : 0 < cap) : Lru κ := ⟨cap, [], pos, .nil, Nat.zero_le _⟩

/-- Drop the least recent key. -/
def popLru (q : Lru κ) : Lru κ :=
  { cap := q.cap, order := q.order.dropLast, pos := q.pos,
    nodup := q.nodup.sublist (dropLast_sublist _),
    bounded := Nat.le_trans (dropLast_sublist q.order).length_le q.bounded }

def lruKey (q : Lru κ) : Option κ := q.order.getLast?

variable {q : Lru κ}

theorem order_eq_of_lruKey {k : κ} (h : q.lruKey = some k) : q.order = q.popLru.order ++ [k] :=
  (dropLast_append_getLast? k h).symm

theorem mem_popLru {k : κ} (h : q.lruKey = some k) {x : κ} : x ∈ q.popLru.order ↔ x ∈ q.order ∧ x ≠ k := by
  have horder := order_eq_of_lruKey h
  have hnodup := q.nodup
  rw [horder, nodup_append] at hnodup
  rw [horder, mem_append, mem_singleton]
  constructor
  · intro hx
    exact ⟨.inl hx, fun heq => hnodup.2.2 x hx k (mem_singleton_self k) heq⟩
  · rintro ⟨hx | hx, hne⟩
    · exact hx
    · exact absurd hx hne

variable [DecidableEq κ]

/-- Move a key to the front, if it is there. -/
def promote (q : Lru κ) (k : κ) : Lru κ :=
  if h : k ∈ q.order then
    { cap := q.cap, order := k :: q.order.erase k, pos := q.pos,
      nodup := (perm_cons_erase h).nodup q.nodup,
      bounded := (perm_cons_erase h).length_eq ▸ q.bounded }
  else q

/-- Put a key in front. The second part is the key itself if it was there already, or the key
dropped for it. -/
def push (q : Lru κ) (k : κ) : Lru κ × Option κ :=
  if hmem : k ∈ q.order then (q.promote k, some k)
  else if hfull : q.order.length < q.cap then
    ({ cap := q.cap, order := k :: q.order, pos := q.pos,
       nodup := nodup_cons.mpr ⟨hmem, q.nodup⟩, bounded := hfull }, none)
  else
    ({ cap := q.cap, order := k :: q.popLru.order, pos := q.pos,
       nodup := nodup_cons.mpr ⟨fun h => hmem ((dropLast_sublist _).subset h), q.popLru.nodup⟩,
       bounded := by
         have hpos := q.pos
         have hb := q.bounded
         show q.order.dropLast.length + 1 ≤ q.cap
         rw [length_dropLast]
         omega },
     q.lruKey)

@[simp] theorem promote_cap (q : Lru κ) (k : κ) : (q.promote k).cap = q.cap := by
  unfold promote
  split <;> rfl

theorem mem_promote {k x : κ} : x ∈ (q.promote k).order ↔ x ∈ q.order := by
  unfold promote
  split
  · rename_i h
    exact (perm_cons_erase h).mem_iff.symm
  · exact Iff.rfl

@[simp] theorem push_cap (q : Lru κ) (k : κ) : (q.push k).1.cap = q.cap := by
  unfold push
  split
  · exact promote_cap q k
  · split <;> rfl

theorem push_head (q : Lru κ) (k : κ) : (q.push k).1.order.head? = some k := by
  unfold push
  split
  · rename_i h
    unfold promote
    rw [dif_pos h]
    rfl
  · split <;> rfl

/-- After a push the queue holds the key and what it held before, less the key reported. -/
theorem mem_push {k x : κ} : x ∈ (q.push k).1.order ↔ x = k ∨ x ∈ q.order ∧ (q.push k).2 ≠ some x := by
  unfold push
  split
  · rename_i h
    rw [mem_promote]
    constructor
    · intro hx
      by_cases hxk : x = k
      · exact .inl hxk
      · exact .inr ⟨hx, fun heq => hxk (Option.some.inj heq).symm⟩
    · rintro (rfl | hx)
      · exact h
      · exact hx.1
  · split
    · simp
    · rename_i hfull
      have hne : q.order ≠ [] := by
        intro hnil
        rw [hnil] at hfull
        exact hfull q.pos
      obtain ⟨last, hlast⟩ := Option.isSome_iff_exists.mp
        (List.getLast?_isSome.mpr hne)
      have hkey : q.lruKey = some last := hlast
      rw [mem_cons, mem_popLru hkey, hkey]
      refine or_congr Iff.rfl (and_congr Iff.rfl ?_)
      exact ⟨fun h heq => h (Option.some.inj heq).symm, fun h heq => h (congrArg some heq.symm)⟩

end Lru

end TensorWasm.Lib
