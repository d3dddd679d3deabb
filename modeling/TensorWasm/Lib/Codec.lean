import TensorWasm.Lib.Bytes

/-!
# Byte formats

Two ways of reading a format back. An encoding is a prefix code if its words can be read off the
front of any text; a record written as a sequence of such words is then determined by its bytes, one
field at a time. A reader with fixed offsets takes slices; the slice lemmas compute what it finds in
a text written field by field.
-/

namespace TensorWasm.Lib

open List

variable {α β : Type}

/-! ## Prefix codes -/

/-- Words of the encoding can be read off the front of any text. -/
def PrefixCode (enc : α → List β) : Prop :=
  ∀ ⦃a b : α⦄ ⦃x y : List β⦄, enc a ++ x = enc b ++ y → a = b ∧ x = y

theorem prefixCode_of_length {enc : α → List β} {n : Nat} (hlength : ∀ a, (enc a).length = n)
    (hinj : ∀ a b, enc a = enc b → a = b) : PrefixCode enc := by
  intro a b x y h
  obtain ⟨henc, hrest⟩ := append_inj h ((hlength a).trans (hlength b).symm)
  exact ⟨hinj a b henc, hrest⟩

theorem prefixCode_uint32 : PrefixCode fun n : UInt32 => leBytes 4 n.toNat := by
  refine prefixCode_of_length (fun n => length_leBytes 4 n.toNat) ?_
  intro a b h
  exact UInt32.toNat_inj.mp (leBytes_inj (UInt32.toNat_lt a) (UInt32.toNat_lt b) h)

@[simp] theorem ofLeBytes_leBytes_uint64 (n : UInt64) : ofLeBytes (leBytes 8 n.toNat) = n.toNat :=
  ofLeBytes_leBytes_of_lt (UInt64.toNat_lt n)

@[simp] theorem ofLeBytes_leBytes_uint32 (n : UInt32) : ofLeBytes (leBytes 4 n.toNat) = n.toNat :=
  ofLeBytes_leBytes_of_lt (UInt32.toNat_lt n)

/-- Equally many words are read off one after the other. -/
theorem PrefixCode.flatMap {enc : α → List β} (henc : PrefixCode enc) {as bs : List α} {x y : List β}
    (hlength : as.length = bs.length) (h : as.flatMap enc ++ x = bs.flatMap enc ++ y) : as = bs ∧ x = y := by
  induction as generalizing bs with
  | nil =>
    obtain rfl := length_eq_zero_iff.mp hlength.symm
    exact ⟨rfl, h⟩
  | cons a as ih =>
    obtain ⟨b, bs, rfl⟩ := exists_cons_of_length_eq_add_one hlength.symm
    rw [flatMap_cons, flatMap_cons, append_assoc, append_assoc] at h
    obtain ⟨rfl, htail⟩ := henc h
    obtain ⟨rfl, hrest⟩ := ih (Nat.succ.inj hlength) htail
    exact ⟨rfl, hrest⟩

/-! ## Counted words -/

/-- A number written in `w` bytes, below the range of that width. -/
theorem leBytes_append_inj {w m n : Nat} {x y : Bytes} (hm : m < 256 ^ w) (hn : n < 256 ^ w)
    (h : leBytes w m ++ x = leBytes w n ++ y) : m = n ∧ x = y := by
  obtain ⟨hnum, hrest⟩ := append_inj h (by simp)
  exact ⟨leBytes_inj hm hn hnum, hrest⟩

/-- Bytes after their own count. -/
theorem counted_append_inj {w : Nat} {as bs x y : Bytes} (has : as.length < 256 ^ w) (hbs : bs.length < 256 ^ w)
    (h : leBytes w as.length ++ (as ++ x) = leBytes w bs.length ++ (bs ++ y)) : as = bs ∧ x = y := by
  obtain ⟨hlength, hrest⟩ := leBytes_append_inj has hbs h
  exact append_inj hrest hlength

/-! ## Strings -/

/-- The bytes of a string. -/
def utf8Bytes (s : String) : Bytes := s.toUTF8.data.toList

/-- The string some bytes spell, if they are valid UTF-8. -/
def ofUtf8 (bytes : Bytes) : Option String := String.fromUTF8? ⟨bytes.toArray⟩

@[simp] theorem length_utf8Bytes (s : String) : (utf8Bytes s).length = s.utf8ByteSize := rfl

theorem utf8Bytes_inj {s t : String} (h : utf8Bytes s = utf8Bytes t) : s = t := by
  apply String.toByteArray_inj.mp
  exact congrArg ByteArray.mk (Array.toList_inj.mp h)

@[simp] theorem ofUtf8_utf8Bytes (s : String) : ofUtf8 (utf8Bytes s) = some s := by
  unfold ofUtf8 String.fromUTF8? utf8Bytes
  rw [Array.toArray_toList]
  exact dif_pos s.isValidUTF8

/-! ## Slices -/

/-- `bytes[i..j]`. -/
def slice (bytes : List α) (i j : Nat) : List α := (bytes.drop i).take (j - i)

variable {a : List α} {j : Nat} {i : Nat}

theorem slice_append_right {b : List α} (h : a.length ≤ i) :
    slice (a ++ b) i j = slice b (i - a.length) (j - a.length) := by
  unfold slice
  rw [drop_append, drop_eq_nil_of_le h, nil_append]
  congr 1
  omega

theorem slice_append_left {b : List α} (h : a.length = j) : slice (a ++ b) 0 j = a := by
  unfold slice
  rw [drop_zero, Nat.sub_zero, ← h, take_left]

theorem slice_append_of_le (b : List α) (h : j ≤ a.length) : slice (a ++ b) i j = slice a i j := by
  unfold slice
  by_cases hi : i ≤ a.length
  · rw [drop_append_of_le_length hi, take_append_of_le_length]
    rw [length_drop]
    omega
  · rw [Nat.sub_eq_zero_of_le (by omega), take_zero, take_zero]

theorem slice_all (h : a.length ≤ j) : slice a 0 j = a := by
  unfold slice
  rw [drop_zero, Nat.sub_zero, take_of_length_le h]

theorem length_slice (h : j ≤ a.length) : (slice a i j).length = j - i := by
  unfold slice
  rw [length_take, length_drop]
  omega

/-- A text is read off slice by slice. -/
theorem slice_append_drop (a : List α) (h : i ≤ j) : slice a i j ++ a.drop j = a.drop i := by
  have hsplit : a.drop j = (a.drop i).drop (j - i) := by rw [drop_drop, Nat.add_sub_cancel' h]
  unfold slice
  rw [hsplit, take_append_drop]

end TensorWasm.Lib
