import TensorWasm.Api.JsonNumbers

/-!
# Which numbers survive a call

An integer literal beyond 64 signed bits becomes a float, as `-0` does, and every infinity or NaN becomes `null`. All
other numbers are kept (`numbersExact_iff`).
-/

namespace TensorWasm.Api

open WasmArg (fromJson)

variable {S : SerdeJson} {l : IntLiteral} {v : Val} {json : ResultJson}

/-- The literal is refused or keeps its value. -/
def ArgExact (S : SerdeJson) (l : IntLiteral) : Prop :=
  ∀ number, S.read l = some number →
    ∀ arg, fromJson (.num number) = .ok arg → arg = .i32 l.value ∨ arg = .i64 l.value

namespace Val

/-- What a result stands for; a vector or a reference is no number. -/
def value : Val → Option FloatValue
  | i32 n => some (.finite n.toInt)
  | i64 n => some (.finite n.toInt)
  | f32 bits => some (floatValue 8 23 bits.toNat)
  | f64 bits => some (floatValue 11 52 bits.toNat)
  | _ => none

def Finite (v : Val) : Prop := ∃ x, v.value = some (.finite x)

def SameType : Val → Val → Prop
  | i32 _, i32 _ | i64 _, i64 _ | f32 _, f32 _ | f64 _, f64 _ => True
  | _, _ => False

/-- The JSON is a number, and equal to the result. -/
def WrittenAs (v : Val) (json : ResultJson) : Prop :=
  match json with
  | .null => False
  | .int n => v.value = some (.finite n)
  | .float x => v.value = some (.finite x)

/-- No result of the same type with another value is written alike. -/
def Distinguished (v : Val) (json : ResultJson) : Prop :=
  ∀ w, SameType v w → valToJson w = .ok json → w.value = v.value

end Val

/-! ## Arguments -/

theorem fromJson_small {n : ℤ} (hn : -2 ^ 63 ≤ n ∧ n < 2 ^ 63) :
    fromJson (.num (.int n)) = .ok (.i32 n) ∨ fromJson (.num (.int n)) = .ok (.i64 n) := by
  rw [fromJson, if_pos hn]
  split <;> simp

/-- What is not a small integer is passed on as a float. -/
theorem fromJson_large {number : Number} (hl : ¬ l.Within (2 ^ 63)) (hread : S.read l = some number) :
    fromJson (.num number) = .ok (.f64 number) := by
  by_cases hint : l.Within (2 ^ 64)
  · obtain rfl := Option.some.inj ((S.exact l hint).symm.trans hread)
    rw [fromJson, if_neg fun hn => hl ⟨hint.1, hn⟩]
  · obtain ⟨bits, rfl⟩ := S.float l hint number hread
    rfl

theorem argExact_iff (S : SerdeJson) (l : IntLiteral) : ArgExact S l ↔ l.Within (2 ^ 63) ∨ S.read l = none := by
  by_cases hl : l.Within (2 ^ 63)
  · refine iff_of_true (fun number hread arg harg => ?_) (.inl hl)
    have hint := S.exact l ⟨hl.1, hl.2.1, hl.2.2.trans (by norm_num)⟩
    obtain rfl := Option.mem_unique hint hread
    -- both outcomes carry the literal itself
    rcases fromJson_small hl.2 with h | h <;> simp_all
  · cases hread : S.read l with
    | none => simp [ArgExact, hread]
    | some number =>
      refine iff_of_false (fun hexact => ?_) (by simpa using hl)
      simpa using hexact number hread _ (fromJson_large hl hread)

/-! ## Results -/

theorem ofFloat_cases {x : FloatValue} (hv : v.value = some x) :
    v.WrittenAs (.ofFloat x) ∧ v.Finite ∨ ResultJson.ofFloat x = .null ∧ ¬ v.Finite := by
  cases x with
  | finite q => exact .inl ⟨hv, q, hv⟩
  | infinite _ | nan => simp [ResultJson.ofFloat, Val.Finite, hv]

/-- A result is written as a number equal to it, or as `null` where it is not finite. -/
theorem valToJson_cases (h : valToJson v = .ok json) : v.WrittenAs json ∧ v.Finite ∨ json = .null ∧ ¬ v.Finite := by
  cases v with
  | i32 n | i64 n =>
    cases h
    exact .inl ⟨rfl, _, rfl⟩
  | f32 bits | f64 bits =>
    cases h
    exact ofFloat_cases rfl
  | _ => cases h

theorem writtenAs_iff (h : valToJson v = .ok json) : v.WrittenAs json ↔ v.Finite := by
  rcases valToJson_cases h with ⟨hwritten, hfinite⟩ | ⟨rfl, hinfinite⟩
  · exact iff_of_true hwritten hfinite
  · exact iff_of_false id hinfinite

/-- An infinity or NaN has a companion of its type that is written alike. -/
theorem exists_confused (h : valToJson v = .ok .null) :
    ∃ w, v.SameType w ∧ valToJson w = .ok .null ∧ w.value ≠ v.value := by
  cases v with
  | f32 bits =>
    by_cases hnan : floatValue 8 23 bits.toNat = .nan
    · exact ⟨.f32 0x7f800000, trivial, rfl, by simp [Val.value, hnan]; decide⟩
    · exact ⟨.f32 0x7fc00000, trivial, rfl, fun hsame => hnan (Option.some.inj hsame).symm⟩
  | f64 bits =>
    by_cases hnan : floatValue 11 52 bits.toNat = .nan
    · exact ⟨.f64 0x7ff0000000000000, trivial, rfl, by simp [Val.value, hnan]; decide⟩
    · exact ⟨.f64 0x7ff8000000000000, trivial, rfl, fun hsame => hnan (Option.some.inj hsame).symm⟩
  | _ => cases h

theorem distinguished_iff (h : valToJson v = .ok json) : v.Distinguished json ↔ v.Finite := by
  rcases valToJson_cases h with ⟨hwritten, hfinite⟩ | ⟨rfl, hinfinite⟩
  · refine iff_of_true (fun w _ hw => ?_) hfinite
    rcases valToJson_cases hw with ⟨hw, -⟩ | ⟨rfl, -⟩
    · cases json with
      | null => cases hw
      | int n | float x => exact hw.trans hwritten.symm
    · cases hwritten
  · refine iff_of_false (fun hdistinct => ?_) hinfinite
    obtain ⟨w, htype, hw, hne⟩ := exists_confused h
    exact hne (hdistinct w htype hw)

/-- Of the integer literals exactly those of 64 signed bits are kept, next to the ones that are refused, and `-0` is
not among them; of the results exactly the finite ones are written as a number equal to them, and told apart from
every other of their type. -/
theorem numbersExact_iff (S : SerdeJson) :
    (∀ l, ArgExact S l ↔ l.Within (2 ^ 63) ∨ S.read l = none) ∧
    ∀ v json, valToJson v = .ok json → (v.WrittenAs json ↔ v.Finite) ∧ (v.Distinguished json ↔ v.Finite) :=
  ⟨argExact_iff S, fun _ _ h => ⟨writtenAs_iff h, distinguished_iff h⟩⟩

/-- A reader that refuses what no integer type has, but for `-0`. -/
def strictReader : SerdeJson where
  read l :=
    if l.Within (2 ^ 64) then some (.int l.value)
    else if l.magnitude = 0 then some (.float 0x8000000000000000) else none
  exact l hl := if_pos hl
  float l hl number hread := by
    rw [if_neg hl] at hread
    split at hread
    · exact ⟨_, (Option.some.inj hread).symm⟩
    · cases hread

/-- The literal 2⁶³ + 1 is passed as a float, as `-0` is, and infinity and NaN are both written as `null`. -/
theorem literal_rounded :
    ¬ ArgExact strictReader ⟨false, 2 ^ 63 + 1⟩ ∧ ¬ ArgExact strictReader ⟨true, 0⟩ ∧
      valToJson (.f64 0x7ff0000000000000) = .ok .null ∧ valToJson (.f64 0x7ff8000000000000) = .ok .null := by
  refine ⟨fun hexact => ?_, fun hexact => ?_, rfl, rfl⟩
  · rcases hexact _ rfl _ rfl with h | h <;> cases h
  · rcases hexact _ rfl _ rfl with h | h <;> cases h

end TensorWasm.Api
