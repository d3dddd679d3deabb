import TensorWasm.WasiGpu.KernelArgs

/-!
# The wire format of kernel arguments is a bijection

A record that parses is the one that its argument encodes to, and an encoded argument parses to itself with
the host pointer resolved, or not at all if its window is outside the guest's memory. Both go over to whole
buffers by induction along the loop.
-/

namespace TensorWasm.WasiGpu

open Lib List

/-! ## One value -/

theorem leBytes_u32FromLe {bytes : Bytes} (h : bytes.length = 4) : leBytes 4 (u32FromLe bytes).toNat = bytes := by
  have hlt : ofLeBytes bytes < 2 ^ 32 := by
    have := ofLeBytes_lt bytes
    rwa [h] at this
  rw [u32FromLe, UInt32.toNat_ofNat_of_lt' hlt, ← h, leBytes_ofLeBytes]

theorem leBytes_u64FromLe {bytes : Bytes} (h : bytes.length = 8) : leBytes 8 (u64FromLe bytes).toNat = bytes := by
  have hlt : ofLeBytes bytes < 2 ^ 64 := by
    have := ofLeBytes_lt bytes
    rwa [h] at this
  rw [u64FromLe, UInt64.toNat_ofNat_of_lt' hlt, ← h, leBytes_ofLeBytes]

@[simp] theorem u32FromLe_leBytes (n : UInt32) : u32FromLe (leBytes 4 n.toNat) = n := by
  rw [u32FromLe, ofLeBytes_leBytes_uint32, UInt32.ofNat_toNat]

@[simp] theorem u64FromLe_leBytes (n : UInt64) : u64FromLe (leBytes 8 n.toNat) = n := by
  rw [u64FromLe, ofLeBytes_leBytes_uint64, UInt64.ofNat_toNat]

@[simp] theorem fromByte_toByte (tag : ArgTag) : ArgTag.fromByte tag.toByte = .ok tag := by
  cases tag <;> rfl

theorem toByte_of_fromByte {b : UInt8} {tag : ArgTag} (h : ArgTag.fromByte b = .ok tag) : tag.toByte = b := by
  unfold ArgTag.fromByte at h
  split_ifs at h with h1 h2 h3 h4 h5 h6 h7
  all_goals
    cases h
    subst b
    rfl

/-! ## One record -/

namespace LoweredArg

/-- The window of a pointer is inside the guest's memory. -/
def InBounds (mem : GuestMemory) : LoweredArg → Prop
  | ptr _ len guestOffset => guestOffset.toNat + len.toNat ≤ mem.size
  | _ => True

instance (mem : GuestMemory) (a : LoweredArg) : Decidable (a.InBounds mem) := by
  unfold InBounds
  split <;> infer_instance

/-- The argument with its host pointer in this memory. -/
def resolve (mem : GuestMemory) : LoweredArg → LoweredArg
  | ptr _ len guestOffset => ptr (mem.base + guestOffset.toNat) len guestOffset
  | a => a

@[simp] theorem snapshot_resolve (mem : GuestMemory) (a : LoweredArg) : (a.resolve mem).snapshot = a.snapshot := by
  cases a <;> rfl

@[simp] theorem length_value (a : LoweredArg) : a.value.length = a.tag.valueBytes := by
  cases a <;> simp [value, tag, ArgTag.valueBytes]

end LoweredArg

/-- An argument that comes out of value bytes has that tag and those bytes. -/
theorem lowerArg_ok {mem : GuestMemory} {tag : ArgTag} {val : Bytes} {a : LoweredArg}
    (h : lowerArg mem tag val = .ok a) (hval : val.length = tag.valueBytes) : a.tag = tag ∧ a.value = val := by
  cases tag with
  | i32 =>
    cases h
    exact ⟨rfl, leBytes_u32FromLe hval⟩
  | i64 =>
    cases h
    exact ⟨rfl, leBytes_u64FromLe hval⟩
  | f32 =>
    cases h
    exact ⟨rfl, leBytes_u32FromLe hval⟩
  | f64 =>
    cases h
    exact ⟨rfl, leBytes_u64FromLe hval⟩
  | u32 =>
    cases h
    exact ⟨rfl, leBytes_u32FromLe hval⟩
  | u64 =>
    cases h
    exact ⟨rfl, leBytes_u64FromLe hval⟩
  | ptr =>
    have hlength : val.length = 8 := hval
    simp only [lowerArg] at h
    split at h
    · cases h
    · cases h
      refine ⟨rfl, ?_⟩
      show leBytes 4 (u32FromLe (slice val 0 4)).toNat ++ leBytes 4 (u32FromLe (slice val 4 8)).toNat = val
      rw [leBytes_u32FromLe (length_slice (by omega)), leBytes_u32FromLe (length_slice (by omega))]
      have hrest : slice val 4 8 = val.drop 4 := by
        have := slice_append_drop val (i := 4) (j := 8) (by omega)
        rwa [drop_eq_nil_of_le hlength.le, append_nil] at this
      rw [hrest, slice_append_drop val (Nat.zero_le 4), drop_zero]

variable (mem : GuestMemory)

/-- The value bytes of an argument stand for it, if its window is inside the memory. -/
theorem lowerArg_value (a : LoweredArg) :
    lowerArg mem a.tag a.value =
      if a.InBounds mem then .ok (a.resolve mem) else .error .invalidPointer := by
  cases a with
  | i32 v
  | i64 v
  | f32 v
  | f64 v
  | u32 v
  | u64 v => simp [lowerArg, LoweredArg.tag, LoweredArg.value, LoweredArg.InBounds, LoweredArg.resolve]
  | ptr hostPtr len guestOffset =>
    have hoffset : slice (leBytes 4 guestOffset.toNat ++ leBytes 4 len.toNat) 0 4 =
        leBytes 4 guestOffset.toNat := slice_append_left (by simp)
    have hlen : slice (leBytes 4 guestOffset.toNat ++ leBytes 4 len.toNat) 4 8 = leBytes 4 len.toNat := by
      rw [slice_append_right (by simp), length_leBytes]
      exact slice_all (by simp)
    simp only [lowerArg, LoweredArg.tag, LoweredArg.value, hoffset, hlen, u32FromLe_leBytes]
    by_cases hin : (LoweredArg.ptr hostPtr len guestOffset).InBounds mem
    · rw [if_pos hin, if_neg (Nat.not_lt.mpr hin)]
      rfl
    · rw [if_neg hin, if_pos (Nat.lt_of_not_le hin)]

/-! ## Whole buffers -/

theorem encodeArgv_append (args more : List LoweredArg) :
    encodeArgv (args ++ more) = encodeArgv args ++ encodeArgv more := flatMap_append

/-- What the loop has read and what is left always make up the buffer. -/
theorem encodeArgv_of_parseRecords {mem : GuestMemory} {out args : List LoweredArg} {buf : Bytes}
    (h : parseRecords mem out buf = .ok args) : encodeArgv args = encodeArgv out ++ buf := by
  fun_induction parseRecords mem out buf with
  | case1 out =>
    cases h
    exact (append_nil _).symm
  | case2 | case3 | case4 | case5 => exact nomatch h
  | case6 out byte rest _ tag htag hlength arg harg ih =>
    have htake : (rest.take tag.valueBytes).length = tag.valueBytes :=
      length_take_of_le (Nat.not_lt.mp hlength)
    obtain ⟨hargTag, hargValue⟩ := lowerArg_ok harg htake
    have hrecord : encodeArgv [arg] = byte :: rest.take tag.valueBytes := by
      rw [encodeArgv, flatMap_singleton, hargTag, hargValue, toByte_of_fromByte htag]
    rw [ih h, encodeArgv_append, hrecord, append_assoc, cons_append, take_append_drop]

variable (args : List LoweredArg)

theorem parseRecords_encodeArgv : ∀ out : List LoweredArg,
    out.length + args.length ≤ maxKernelArgs →
      parseRecords mem out (encodeArgv args) =
        if ∀ a ∈ args, a.InBounds mem then .ok (out ++ args.map (·.resolve mem))
        else .error .invalidPointer := by
  induction args with
  | nil =>
    intro out _
    simp [encodeArgv, parseRecords]
  | cons a args ih =>
    intro out hcount
    rw [length_cons] at hcount
    have hencode : encodeArgv (a :: args) = a.tag.toByte :: (a.value ++ encodeArgv args) := rfl
    have hroom : ¬ maxKernelArgs ≤ out.length := by omega
    have hlength : ¬ (a.value ++ encodeArgv args).length < a.tag.valueBytes := by
      rw [length_append, LoweredArg.length_value]
      omega
    have htake : (a.value ++ encodeArgv args).take a.tag.valueBytes = a.value :=
      take_left' a.length_value
    have hdrop : (a.value ++ encodeArgv args).drop a.tag.valueBytes = encodeArgv args :=
      drop_left' a.length_value
    rw [hencode, parseRecords, if_neg hroom, fromByte_toByte]
    simp only [if_neg hlength, htake, hdrop, lowerArg_value]
    by_cases hin : a.InBounds mem
    · simp only [hin, if_true, forall_mem_cons, true_and]
      rw [ih (out ++ [a.resolve mem]) (by rw [length_append, length_singleton]; omega)]
      simp [append_assoc]
    · simp [hin]

theorem length_encodeArgv_le : (encodeArgv args).length ≤ 9 * args.length := by
  induction args with
  | nil => exact Nat.le_refl 0
  | cons a args ih =>
    have hvalue : a.value.length ≤ 8 := by
      rw [LoweredArg.length_value]
      cases a <;> simp [LoweredArg.tag, ArgTag.valueBytes]
    have hencode : encodeArgv (a :: args) = a.tag.toByte :: (a.value ++ encodeArgv args) := rfl
    rw [hencode, length_cons, length_append, length_cons]
    omega

theorem parseArgv_encodeArgv (h : args.length ≤ maxKernelArgs) :
    parseArgv (encodeArgv args) mem =
      if ∀ a ∈ args, a.InBounds mem then .ok (args.map (·.resolve mem)) else .error .invalidPointer := by
  have hcap : ¬ maxKernelArgsBytes < (encodeArgv args).length := by
    have := length_encodeArgv_le args
    unfold maxKernelArgs at h
    unfold maxKernelArgsBytes
    omega
  rw [parseArgv, if_neg hcap, parseRecords_encodeArgv mem args [] (by simpa using h), nil_append]

/-- What parses is the encoding of what it parses to; and an encoding parses to the same arguments if there
are not too many of them and every window is inside the memory, and is refused if one is not. -/
theorem argv_bijection (mem : GuestMemory) :
    (∀ buf args, parseArgv buf mem = .ok args → encodeArgv args = buf) ∧
      (∀ args : List LoweredArg, args.length ≤ maxKernelArgs → (∀ a ∈ args, a.InBounds mem) →
        ∃ parsed, parseArgv (encodeArgv args) mem = .ok parsed ∧
          parsed.map LoweredArg.snapshot = args.map LoweredArg.snapshot) ∧
      ∀ args : List LoweredArg, args.length ≤ maxKernelArgs → (∃ a ∈ args, ¬ a.InBounds mem) →
        parseArgv (encodeArgv args) mem = .error .invalidPointer := by
  refine ⟨?_, ?_, ?_⟩
  · intro buf args h
    unfold parseArgv at h
    split at h
    · cases h
    · exact encodeArgv_of_parseRecords h
  · intro args hcount hin
    refine ⟨args.map (·.resolve mem), ?_, ?_⟩
    · rw [parseArgv_encodeArgv mem args hcount, if_pos hin]
    · rw [map_map]
      exact map_congr_left fun a _ => a.snapshot_resolve mem
  · intro args hcount hout
    obtain ⟨a, ha, hbad⟩ := hout
    rw [parseArgv_encodeArgv mem args hcount, if_neg fun hin => hbad (hin a ha)]

end TensorWasm.WasiGpu
