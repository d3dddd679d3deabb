import TensorWasm.Jit.Trampoline
import TensorWasm.Wasm.Exec

/-!
# Packed regions

What `pack_layout` guarantees about the offsets it hands out (`Packed`): they follow each other
without overlap and end below the padded total. Writing values at packed offsets and reading them
back is then a lemma about `Packed`, with nothing about the packer in it.
-/

namespace TensorWasm.Jit

open Lib Wasm

/-! ## The packer -/

/-- Values of the given types lie at the given offsets, from `off` on, without overlap, up to
`stop`. -/
def Packed : Nat → List NumType → List Nat → Nat → Prop
  | off, [], [], stop => off = stop
  | off, t :: ts, o :: os, stop => off ≤ o ∧ Packed (o + t.width) ts os stop
  | _, _, _, _ => False

theorem size_eq_width (t : NumType) : NumType.size t = t.width := by
  cases t <;> rfl

theorem checkedAddOr_eq_ok {e : TrampolineError} {a b r : Nat} (h : checkedAddOr e a b = .ok r) :
    a + b < 2 ^ 32 ∧ r = a + b := by
  unfold checkedAddOr at h
  split at h
  · rename_i hlt
    exact ⟨hlt, (Except.ok.inj h).symm⟩
  · cases h

theorem alignedAdvance_eq_ok {off r : Nat} {t : NumType} (h : alignedAdvance off (.num t) = .ok r) : off ≤ r := by
  obtain ⟨align, halign, h⟩ := bind_eq_ok.mp h
  cases halign
  obtain ⟨summed, hsummed, h⟩ := bind_eq_ok.mp h
  obtain ⟨-, rfl⟩ := checkedAddOr_eq_ok hsummed
  cases h
  cases t <;> simp only [NumType.size] <;> omega

theorem packOffsets_packed {ts : List NumType} {off stop : Nat} {offs : List Nat}
    (h : packOffsets (ts.map .num) off = .ok (offs, stop)) : Packed off ts offs stop := by
  induction ts generalizing off offs with
  | nil =>
    cases h
    rfl
  | cons t ts ih =>
    obtain ⟨aligned, haligned, h⟩ := bind_eq_ok.mp h
    obtain ⟨size, hsize, h⟩ := bind_eq_ok.mp h
    cases hsize
    obtain ⟨next, hnext, h⟩ := bind_eq_ok.mp h
    obtain ⟨-, rfl⟩ := checkedAddOr_eq_ok hnext
    obtain ⟨⟨offs', stop'⟩, hrest, h⟩ := bind_eq_ok.mp h
    cases h
    refine ⟨alignedAdvance_eq_ok haligned, ?_⟩
    rw [size_eq_width] at hrest
    exact ih hrest

/-- A body that was built is over number types, with both layouts and a scratch size that fits an `i32`. -/
theorem exists_layouts {fp : UInt64} {host : DispatchImports} {params results : List ValType} {body : FuncBody}
    (h : buildTrampoline fp host params results = .ok body) :
    ∃ (ps rs : List NumType) (argL resL : PackedLayout),
      params = ps.map .num ∧ results = rs.map .num ∧ packLayout params = .ok argL ∧
        packLayout results = .ok resL ∧ argL.totalBytes + resL.totalBytes < 2 ^ 31 ∧
        body = { locals := [(2, .num .i32)], ops := trampolineOps fp host params results argL resL } := by
  unfold buildTrampoline at h
  split at h
  · cases h
  · rename_i hfind
    have hnum : ∀ t ∈ params ++ results, ∃ n, t = .num n := by
      intro t ht
      have := List.find?_eq_none.mp hfind t ht
      cases t with
      | num n => exact ⟨n, rfl⟩
      | v128 | ref heap => simp [isSupportedPrimitive] at this
    have hmap : ∀ ts : List ValType, (∀ t ∈ ts, ∃ n, t = .num n) → ∃ ns : List NumType, ts = ns.map .num := by
      intro ts hts
      have hrange : ts ∈ Set.range (List.map ValType.num) := by
        rw [Set.range_list_map]
        exact fun t ht => (hts t ht).imp fun _ h => h.symm
      exact hrange.imp fun _ h => h.symm
    obtain ⟨ps, hps⟩ := hmap params fun t ht => hnum t (List.mem_append_left _ ht)
    obtain ⟨rs, hrs⟩ := hmap results fun t ht => hnum t (List.mem_append_right _ ht)
    obtain ⟨argL, hargs, h⟩ := bind_eq_ok.mp h
    obtain ⟨resL, hresults, h⟩ := bind_eq_ok.mp h
    obtain ⟨total, htotal, h⟩ := bind_eq_ok.mp h
    obtain ⟨-, rfl⟩ := checkedAddOr_eq_ok htotal
    split at h
    · cases h
    · rename_i hle
      exact ⟨ps, rs, argL, resL, hps, hrs, hargs, hresults, by omega, (Except.ok.inj h).symm⟩

/-- The region of a layout: packed offsets, then padding to a multiple of eight. -/
theorem packLayout_eq_ok {ts : List NumType} {layout : PackedLayout} (h : packLayout (ts.map .num) = .ok layout) :
    8 ∣ layout.totalBytes ∧ ∃ stop ≤ layout.totalBytes, Packed 0 ts layout.offsets stop := by
  obtain ⟨⟨offs, stop⟩, hoffs, h⟩ := bind_eq_ok.mp h
  obtain ⟨padded, hpadded, h⟩ := bind_eq_ok.mp h
  obtain ⟨-, rfl⟩ := checkedAddOr_eq_ok hpadded
  cases h
  refine ⟨⟨_, Nat.mul_comm _ _⟩, stop, ?_, packOffsets_packed hoffs⟩
  show stop ≤ (stop + 7) / 8 * 8
  omega

namespace Packed

variable {off stop : Nat} {ts : List NumType} {offs : List Nat}

/-- Induction from the last value on. -/
theorem induction {motive : ∀ off ts offs, Packed off ts offs stop → Prop} (nil : motive stop [] [] rfl)
    (cons : ∀ {off t ts o offs} (hle : off ≤ o) (h : Packed (o + t.width) ts offs stop),
      motive (o + t.width) ts offs h → motive off (t :: ts) (o :: offs) ⟨hle, h⟩) {off : Nat} {ts : List NumType}
    {offs : List Nat} (h : Packed off ts offs stop) : motive off ts offs h := by
  induction ts generalizing off offs with
  | nil =>
    cases offs with
    | nil =>
      cases show off = stop from h
      exact nil
    | cons o offs => exact absurd h id
  | cons t ts ih =>
    cases offs with
    | nil => exact absurd h id
    | cons o offs => exact cons h.1 h.2 (ih h.2)

theorem le_stop (h : Packed off ts offs stop) : off + 4 * ts.length ≤ stop := by
  induction h using Packed.induction with
  | nil => exact Nat.le_refl _
  | @cons off t ts o offs hle hrest ih =>
    have hwidth : 4 ≤ t.width := by cases t <;> decide
    rw [List.length_cons]
    omega

end Packed

/-! ## Values at packed offsets -/

/-- Write values at their offsets. -/
def writeArgs (base : Nat) : List Value → List Nat → Memory → Memory
  | v :: vs, o :: os, m => writeArgs base vs os (m.write (base + o) v.bytes)
  | _, _, m => m

/-- Read values at their offsets. -/
def readResults (m : Memory) (base : Nat) : List NumType → List Nat → List Value
  | t :: ts, o :: os => t.decode (m.read (base + o) t.width) :: readResults m base ts os
  | _, _ => []

@[simp] theorem len_writeArgs (base : Nat) (vs : List Value) (os : List Nat) (m : Memory) :
    (writeArgs base vs os m).len = m.len := by
  induction vs generalizing os m with
  | nil => cases os <;> rfl
  | cons v vs ih =>
    cases os with
    | nil => rfl
    | cons o os => exact ih os _

/-- Writing at packed offsets leaves what is below them alone. -/
theorem Packed.read_below {off stop : Nat} {vs : List Value} {os : List Nat}
    (h : Packed off (vs.map Value.type) os stop) (base : Nat) (m : Memory) {addr n : Nat}
    (hbelow : addr + n ≤ base + off) : (writeArgs base vs os m).read addr n = m.read addr n := by
  induction vs generalizing off os m with
  | nil => cases os <;> rfl
  | cons v vs ih =>
    cases os with
    | nil => rfl
    | cons o os =>
      obtain ⟨hle, hrest⟩ := h
      show (writeArgs base vs os (m.write (base + o) v.bytes)).read addr n = _
      rw [ih hrest _ (by omega)]
      exact m.read_write_of_separate v.bytes (.inl (by omega))

/-- **Each value is read back at its offset.** -/
theorem Packed.read_writeArgs {off stop : Nat} {vs : List Value} {os : List Nat}
    (h : Packed off (vs.map Value.type) os stop) (base : Nat) (m : Memory) {i : Nat} {v : Value}
    {o : Nat} (hv : vs[i]? = some v) (ho : os[i]? = some o) :
    (writeArgs base vs os m).read (base + o) v.type.width = v.bytes := by
  induction vs generalizing off os m i with
  | nil => exact absurd hv (by simp)
  | cons w ws ih =>
    cases os with
    | nil => exact absurd h id
    | cons p ps =>
      obtain ⟨hle, hrest⟩ := h
      cases i with
      | zero =>
        obtain rfl := Option.some.inj hv
        obtain rfl := Option.some.inj ho
        show (writeArgs base ws ps (m.write (base + p) w.bytes)).read (base + p) w.type.width = _
        rw [hrest.read_below base _ (by omega), ← w.length_bytes]
        exact m.read_write (base + p) w.bytes
      | succ i => exact ih hrest _ (by simpa using hv) (by simpa using ho)

end TensorWasm.Jit
