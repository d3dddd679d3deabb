import Mathlib.Algebra.Group.Nat.Defs
import Mathlib.Data.List.Basic

/-!
# Lossy decoding of UTF-8

The decoder keeps the bytes of the sequence it is in. A byte that does not continue the sequence ends it with a
replacement character, as the end of the text does. Texts that are decoded apart give what they give together
exactly where no cut falls inside a sequence: one that is split gives more characters than one that is not.
-/

namespace TensorWasm.Lib

open List

/-- The length of the sequence a byte starts, zero if it starts none. -/
def sequenceLen (b : UInt8) : Nat :=
  if b < 0x80 then 1
  else if b < 0xC2 then 0
  else if b < 0xE0 then 2
  else if b < 0xF0 then 3
  else if b < 0xF5 then 4
  else 0

/-- The second byte rules out overlong sequences, surrogates, and what is beyond the last code point. -/
def continuesSequence : List UInt8 → UInt8 → Bool
  | [], _ => false
  | [first], b =>
    (if first = 0xE0 then 0xA0 else if first = 0xF0 then 0x90 else 0x80) ≤ b &&
      b ≤ if first = 0xED then 0x9F else if first = 0xF4 then 0x8F else 0xBF
  | _, b => 0x80 ≤ b && b ≤ 0xBF

def scalarOf : List UInt8 → Char
  | [] => '�'
  | first :: rest =>
    let lead := if rest = [] then first.toNat else first.toNat % 2 ^ (6 - rest.length)
    Char.ofNat (rest.foldl (fun n b => n * 64 + b.toNat % 64) lead)

/-- A sequence that has got one more byte. -/
def extended : List UInt8 → List UInt8 × List Char
  | [] => ([], [])
  | first :: rest =>
    if rest.length + 1 < sequenceLen first then (first :: rest, []) else ([], [scalarOf (first :: rest)])

/-- The bytes of an unfinished sequence. -/
def brokenOff (pending : List UInt8) : List Char := if pending = [] then [] else ['�']

/-- The bytes the decoder keeps, and the characters it gives. -/
def decodeByte (pending : List UInt8) (b : UInt8) : List UInt8 × List Char :=
  if continuesSequence pending b then extended (pending ++ [b])
  else if sequenceLen b = 0 then ([], brokenOff pending ++ ['�'])
  else ((extended [b]).1, brokenOff pending ++ (extended [b]).2)

def decodeLossy (pending : List UInt8) : List UInt8 → List Char
  | [] => brokenOff pending
  | b :: bytes => (decodeByte pending b).2 ++ decodeLossy (decodeByte pending b).1 bytes

def fromUtf8Lossy (bytes : List UInt8) : String := String.ofList (decodeLossy [] bytes)

/-- The bytes of the sequence the decoder is in behind a text. -/
def pendingAfter (pending bytes : List UInt8) : List UInt8 :=
  bytes.foldl (fun pending b => (decodeByte pending b).1) pending

/-- A cut in front of `after` lets the sequence be: no byte follows, or one that does not continue it. -/
def SplitsNothing (pending after : List UInt8) : Prop :=
  ∀ b ∈ after.head?, continuesSequence pending b = false

/-- No chunk ends inside a sequence that the bytes behind it continue. What counts is the next byte, in
whichever chunk it is, as a chunk may be empty. -/
def CutsBetween : List (List UInt8) → Prop
  | [] => True
  | c :: chunks => SplitsNothing (pendingAfter [] c) chunks.flatten ∧ CutsBetween chunks

variable {pending : List UInt8} {b : UInt8}

/-- A byte that continues a sequence starts none. -/
theorem decodeByte_of_continues (h : continuesSequence pending b = true) : decodeByte [] b = ([], ['�']) := by
  have hrange : 0x80 ≤ b ∧ b ≤ 0xBF := by
    match pending, h with
    | [first], h =>
      simp only [continuesSequence, Bool.and_eq_true, decide_eq_true_eq] at h
      refine ⟨UInt8.le_trans ?_ h.1, UInt8.le_trans h.2 ?_⟩ <;> split_ifs <;> decide
    | _ :: _ :: _, h => simpa [continuesSequence] using h
  have hnone : sequenceLen b = 0 := by
    rw [sequenceLen, if_neg (UInt8.not_lt.mpr hrange.1), if_pos (UInt8.lt_of_le_of_lt hrange.2 (by decide))]
  simp [decodeByte, continuesSequence, hnone, brokenOff]

/-- What does not continue the sequence is decoded as if the text began with it. -/
theorem decodeLossy_restart {after : List UInt8} (h : SplitsNothing pending after) :
    decodeLossy pending after = brokenOff pending ++ decodeLossy [] after := by
  cases after with
  | nil => simp [decodeLossy, brokenOff]
  | cons b after =>
    have hb : continuesSequence pending b = false := h b rfl
    have hstart : continuesSequence [] b = false := rfl
    by_cases hlen : sequenceLen b = 0
    · simp [decodeLossy, decodeByte, hb, hstart, hlen, brokenOff]
    · simp [decodeLossy, decodeByte, hb, hstart, hlen, brokenOff]

theorem extended_cases (pending : List UInt8) :
    extended pending = (pending, []) ∨ extended pending = ([], [scalarOf pending]) := by
  cases pending with
  | nil => exact .inl rfl
  | cons first rest => exact ite_eq_or_eq _ _ _

theorem length_brokenOff_le (pending : List UInt8) : (brokenOff pending).length ≤ 1 := by
  unfold brokenOff
  split_ifs <;> simp

/-- A byte that continues a sequence gives a character of its own where the text begins with it. -/
theorem length_decodeLossy_continues {bytes : List UInt8} (h : continuesSequence pending b = true)
    (hle : ∀ q, (decodeLossy q bytes).length ≤ (decodeLossy [] bytes).length + 1) :
    (decodeLossy pending (b :: bytes)).length < (decodeLossy [] (b :: bytes)).length + 1 := by
  have hjoined : decodeByte pending b = extended (pending ++ [b]) := if_pos h
  rw [decodeLossy, decodeLossy, decodeByte_of_continues h, hjoined]
  rcases extended_cases (pending ++ [b]) with hopen | hdone
  · have hopen' := hle (pending ++ [b])
    simp only [hopen, nil_append, length_append, length_singleton]
    omega
  · simp only [hdone, length_append, length_singleton]
    omega

theorem length_decodeLossy_le (bytes : List UInt8) :
    ∀ pending, (decodeLossy pending bytes).length ≤ (decodeLossy [] bytes).length + 1 := by
  induction bytes with
  | nil => exact length_brokenOff_le
  | cons b bytes ih =>
    intro pending
    cases hb : continuesSequence pending b with
    | true => exact Nat.le_of_lt (length_decodeLossy_continues hb ih)
    | false =>
      have hsplits : SplitsNothing pending (b :: bytes) := by
        rintro _ ⟨⟩
        exact hb
      have hbroken := length_brokenOff_le pending
      rw [decodeLossy_restart hsplits, length_append]
      omega

/-- Two texts are decoded apart as together, if the cut lets the sequence before it be. -/
theorem decodeLossy_append {before after : List UInt8} (h : SplitsNothing (pendingAfter pending before) after) :
    decodeLossy pending (before ++ after) = decodeLossy pending before ++ decodeLossy [] after := by
  induction before generalizing pending with
  | nil => exact decodeLossy_restart h
  | cons b before ih => rw [cons_append, decodeLossy, ih h, decodeLossy, append_assoc]

/-- Otherwise they give more characters apart. -/
theorem length_decodeLossy_append_lt {before after : List UInt8}
    (h : ¬ SplitsNothing (pendingAfter pending before) after) :
    (decodeLossy pending (before ++ after)).length <
      (decodeLossy pending before).length + (decodeLossy [] after).length := by
  induction before generalizing pending with
  | nil =>
    simp only [SplitsNothing, not_forall] at h
    obtain ⟨b, hhead, hb⟩ := h
    obtain ⟨bytes, rfl⟩ := List.head?_eq_some_iff.mp hhead
    have hb : continuesSequence pending b = true := eq_true_of_ne_false hb
    have hlt := length_decodeLossy_continues hb (length_decodeLossy_le bytes)
    -- the sequence is not empty, so that the cut leaves a replacement character
    have hne : pending ≠ [] := by
      rintro rfl
      cases hb
    rw [nil_append, decodeLossy, brokenOff, if_neg hne, length_singleton]
    omega
  | cons b before ih =>
    rw [cons_append, decodeLossy, decodeLossy, length_append, length_append, Nat.add_assoc]
    exact Nat.add_lt_add_left (ih h) _

theorem decodeLossy_flatten {chunks : List (List UInt8)} (h : CutsBetween chunks) :
    decodeLossy [] chunks.flatten = chunks.flatMap (decodeLossy []) := by
  induction chunks with
  | nil => rfl
  | cons c chunks ih => rw [flatten_cons, decodeLossy_append h.1, ih h.2, flatMap_cons]

/-- A sequence that is split gives more characters, and no other cut takes one back. -/
theorem length_decodeLossy_flatten_lt {chunks : List (List UInt8)} (h : ¬ CutsBetween chunks) :
    (decodeLossy [] chunks.flatten).length < (chunks.flatMap (decodeLossy [])).length := by
  induction chunks with
  | nil => exact absurd trivial h
  | cons c chunks ih =>
    rw [flatten_cons, flatMap_cons, length_append]
    by_cases hcut : SplitsNothing (pendingAfter [] c) chunks.flatten
    · have hrest := ih fun hcuts => h ⟨hcut, hcuts⟩
      rw [decodeLossy_append hcut, length_append]
      omega
    · have hfirst := length_decodeLossy_append_lt hcut
      by_cases hcuts : CutsBetween chunks
      · rw [← decodeLossy_flatten hcuts]
        exact hfirst
      · have hrest := ih hcuts
        omega

theorem decodeLossy_flatten_iff {chunks : List (List UInt8)} :
    decodeLossy [] chunks.flatten = chunks.flatMap (decodeLossy []) ↔ CutsBetween chunks := by
  refine ⟨fun hsame => ?_, decodeLossy_flatten⟩
  by_contra hcuts
  exact Nat.ne_of_lt (length_decodeLossy_flatten_lt hcuts) (congrArg List.length hsame)

example : fromUtf8Lossy [0x41, 0xE2, 0x82, 0xAC, 0xE2, 0x82, 0x42, 0xC0] = "A€�B�" := by decide +kernel

end TensorWasm.Lib
