import TensorWasm.Lib.Codec

/-!
# Reading a format under a budget

A reader takes bytes off the front of a text. Every byte is claimed before it is read, and the claims
are bounded. `Reads p w a` says that `p` reads the word `w` as the value `a` wherever the budget allows
the word; the rules follow the way readers are put together.
-/

namespace TensorWasm.Lib

variable {α β : Type}

structure ReadState where
  claimed : Nat
  rest : Bytes

inductive ReadError
  | limitExceeded
  | unexpectedEnd (additional : Nat)
  | unexpectedVariant (found : UInt8)
  deriving DecidableEq

/-- A reader, given the bound on all claims. -/
def LimitedReader (α : Type) : Type := Nat → ReadState → Except ReadError (α × ReadState)

namespace LimitedReader

instance : Monad LimitedReader where
  pure a := fun _ s => .ok (a, s)
  bind p f := fun limit s => p limit s >>= fun as => f as.1 limit as.2

def fail (e : ReadError) : LimitedReader α := fun _ _ => .error e

/-- The next `n` bytes. -/
def take (n : Nat) : LimitedReader Bytes := fun limit s =>
  if limit < s.claimed + n then .error .limitExceeded
  else if s.rest.length < n then .error (.unexpectedEnd (n - s.rest.length))
  else .ok (s.rest.take n, ⟨s.claimed + n, s.rest.drop n⟩)

/-- A number of `w` bytes. -/
def number (w : Nat) : LimitedReader Nat := do
  let bytes ← take w
  return ofLeBytes bytes

/-- Bytes after their count in eight bytes. -/
def counted : LimitedReader Bytes := do
  let n ← number 8
  take n

/-- An optional value after a tag byte. -/
def option (p : LimitedReader α) : LimitedReader (Option α) := do
  let tag ← take 1
  match tag with
  | [0] => return none
  | [1] =>
    let a ← p
    return some a
  | _ => fail (.unexpectedVariant (tag.headD 0))

/-- The reader reads the word as the value, and nothing more. -/
def Reads (p : LimitedReader α) (w : Bytes) (a : α) : Prop :=
  ∀ limit claimed rest, claimed + w.length ≤ limit →
    p limit ⟨claimed, w ++ rest⟩ = .ok (a, ⟨claimed + w.length, rest⟩)

theorem reads_pure (a : α) : Reads (pure a) [] a := fun _ _ _ _ => rfl

variable {p : LimitedReader α} {w : Bytes}

theorem Reads.bind {f : α → LimitedReader β} {v : Bytes} {a : α} {b : β} (hp : Reads p w a)
    (hf : Reads (f a) v b) : Reads (p >>= f) (w ++ v) b := by
  intro limit claimed rest hlimit
  rw [List.length_append, ← Nat.add_assoc] at hlimit ⊢
  rw [List.append_assoc]
  have hfirst := hp limit claimed (v ++ rest) (Nat.le_of_add_right_le hlimit)
  change (p limit ⟨claimed, w ++ (v ++ rest)⟩ >>= fun as => f as.1 limit as.2) = _
  rw [hfirst]
  exact hf limit (claimed + w.length) rest hlimit

/-- The value may be computed from what was read. -/
theorem Reads.map {g : α → β} {a : α} (hp : Reads p w a) : Reads (p >>= fun a => pure (g a)) w (g a) := by
  have hread := hp.bind (f := fun a => pure (g a)) (reads_pure (g a))
  rwa [List.append_nil] at hread

theorem reads_take (w : Bytes) : Reads (take w.length) w w := by
  intro limit claimed rest hlimit
  simp [take, Nat.not_lt.mpr hlimit]

theorem reads_number {w n : Nat} (h : n < 256 ^ w) : Reads (number w) (leBytes w n) n := by
  have hbytes := reads_take (leBytes w n)
  rw [length_leBytes] at hbytes
  have hread := hbytes.map (g := ofLeBytes)
  rwa [ofLeBytes_leBytes_of_lt h] at hread

theorem reads_counted {bytes : Bytes} (h : bytes.length < 256 ^ 8) :
    Reads counted (leBytes 8 bytes.length ++ bytes) bytes :=
  (reads_number h).bind (reads_take bytes)

theorem reads_none (p : LimitedReader α) : Reads (option p) [0] none :=
  (reads_take [0]).bind (reads_pure none)

theorem Reads.some {a : α} (hp : Reads p w a) : Reads (option p) (1 :: w) (some a) :=
  (reads_take [1]).bind hp.map

/-- A text that is one word within the budget. -/
theorem Reads.all {a : α} (hp : Reads p w a) {limit : Nat} (h : w.length ≤ limit) :
    p limit ⟨0, w⟩ = .ok (a, ⟨w.length, []⟩) := by
  have hread := hp limit 0 [] (by rwa [Nat.zero_add])
  rwa [List.append_nil, Nat.zero_add] at hread

end LimitedReader

end TensorWasm.Lib
