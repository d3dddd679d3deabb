import TensorWasm.Jit.BlueprintAdapter
import TensorWasm.Proof.LaneReading

/-!
# What the blueprint of a lowered function stores

A lowered function names the operands of its operations; a blueprint takes them from a stack. The blueprint that
the adapter makes loads one vector and then takes two or three, so it runs out of operands in either reading of a
lane program, whatever the function does.
-/

namespace TensorWasm.Jit

open Clif Lib

/-! ## The values of a lowered block -/

/-- The values of a straight-line block under way: what the ids stand for, and what it has loaded and stored. -/
structure ValueState (V : Type) where
  env : LoweredValueId → V
  loaded : List V
  stored : List V

section Values

variable {V : Type} (A : Interp ArithSym Unit V) (mem : LoweredType → V → Int → V)

/-- One operation, for those that the adapter looks for. -/
def valueStep (op : LoweredOp) (s : ValueState V) : Option (ValueState V) :=
  match op with
  | .load ty base offset result =>
    let v := mem ty (s.env base) offset
    some { s with env := Function.update s.env result v, loaded := s.loaded ++ [v] }
  | .arith .addI _ lhs rhs result | .float .addF _ lhs rhs result =>
    some { s with env := Function.update s.env result (A.bin .add (s.env lhs) (s.env rhs)) }
  | .arith .mulI _ lhs rhs result | .float .mulF _ lhs rhs result =>
    some { s with env := Function.update s.env result (A.bin .mul (s.env lhs) (s.env rhs)) }
  | .fma _ a b c result =>
    some { s with env := Function.update s.env result (A.ter () (s.env a) (s.env b) (s.env c)) }
  | .store _ value _ _ => some { s with stored := s.stored ++ [s.env value] }
  | .return _ => some s
  | _ => none

def valueRun : List LoweredOp → ValueState V → Option (ValueState V)
  | [], s => some s
  | op :: ops, s => (valueStep A mem op s).bind (valueRun ops)

end Values

/-! ## Soundness of the adapter -/

/-- How a stack program takes its operands: whole vectors, or lane by lane. -/
inductive Reading
  | vector | lanes

def Reading.run {V : Type} (r : Reading) (A : Interp ArithSym Unit V) (ρ : Nat → V) (ops : List TensorWasmOp) :
    Option (LaneState V) :=
  match r with
  | .vector => laneRun (vecStep A ρ) (laneProgram ops) .init
  | .lanes => laneRun (scalStep A ρ) (laneProgram ops) .init

/-- The blueprint stores the values that the block stores, for every meaning of the arithmetic, every memory and
every value of the ids it does not define, on an input stream that begins with what the block loads. -/
def StoresSame (r : Reading) (block : LoweredBlock) (bp : TensorWasmKernelBlueprint) : Prop :=
  ∀ (V : Type) (A : Interp ArithSym Unit V) (mem : LoweredType → V → Int → V) (env : LoweredValueId → V)
    (s : ValueState V), valueRun A mem block.ops ⟨env, [], []⟩ = some s →
      ∀ ρ : Nat → V, (∀ i v, s.loaded[i]? = some v → ρ i = v) →
        ∃ final, r.run A ρ bp.ops = some final ∧ final.out = s.stored

/-- The loads and stores of the block are at offset zero, and of the element type of the blueprint's. -/
def Expressible (block : LoweredBlock) (bp : TensorWasmKernelBlueprint) : Prop :=
  ∀ op ∈ block.ops,
    match op with
    | .load ty _ offset _ =>
      offset = 0 ∧ ∃ elem lanes, loweredTypeToElem ty = some elem ∧ .loadUnified elem lanes ∈ bp.ops
    | .store ty _ _ offset =>
      offset = 0 ∧ ∃ elem lanes, loweredTypeToElem ty = some elem ∧ .storeUnified elem lanes ∈ bp.ops
    | _ => True

/-- What an accepted function looks like. -/
theorem exists_of_accepted {func : LoweredFunction} {bp : TensorWasmKernelBlueprint}
    (h : loweredFunctionToBlueprint func = .ok bp) :
    ∃ block first middle third last op elem, func.blocks = [block] ∧ block.ops = [first, middle, third, last] ∧
      isLoad first = true ∧ kernelOp middle = .ok (op, elem) ∧ isStore third = true ∧ isReturn last = true ∧
      bp.ops = [.loadUnified elem BlueprintAdapter.defaultLanes, op,
        .storeUnified elem BlueprintAdapter.defaultLanes] := by
  unfold loweredFunctionToBlueprint at h
  split at h
  · cases h
  · rename_i block hblocks
    unfold blockToBlueprint at h
    split at h
    · cases h
    · rename_i last hlast
      split at h
      · cases h
      · split at h
        · cases h
        · rename_i hreturn
          split at h
          · rename_i first middle third fourth hops
            obtain rfl : fourth = last := by
              rw [hops] at hlast
              exact Option.some.inj hlast
            split at h
            · cases h
            · rename_i hload
              split at h
              · cases h
              · rename_i hstore
                split at h
                · cases h
                · rename_i op elem hop
                  cases h
                  exact ⟨block, first, middle, third, fourth, op, elem, hblocks, hops, by simpa using hload, hop,
                    by simpa using hstore, by simpa using hreturn, rfl⟩
          · cases h
  · cases h

variable {op : TensorWasmOp} {elem : ElemType}

/-- The block of an accepted function runs. -/
theorem exists_valueRun {first middle third last : LoweredOp}
    (hfirst : isLoad first = true) (hmiddle : kernelOp middle = .ok (op, elem)) (hthird : isStore third = true)
    (hlast : isReturn last = true) {V : Type} (A : Interp ArithSym Unit V) (mem : LoweredType → V → Int → V)
    (s : ValueState V) : ∃ s', valueRun A mem [first, middle, third, last] s = some s' := by
  have hstepLoad : ∀ s, ∃ s', valueStep A mem first s = some s' := by
    intro s
    unfold isLoad at hfirst
    split at hfirst
    · exact ⟨_, rfl⟩
    · cases hfirst
  have hstepArith : ∀ s, ∃ s', valueStep A mem middle s = some s' := by
    intro s
    unfold kernelOp at hmiddle
    dsimp only at hmiddle
    split at hmiddle
    · exact ⟨_, rfl⟩
    · exact ⟨_, rfl⟩
    · exact ⟨_, rfl⟩
    · exact ⟨_, rfl⟩
    · exact ⟨_, rfl⟩
    · cases hmiddle
  have hstepStore : ∀ s, ∃ s', valueStep A mem third s = some s' := by
    intro s
    unfold isStore at hthird
    split at hthird
    · exact ⟨_, rfl⟩
    · cases hthird
  have hstepReturn : ∀ s, ∃ s', valueStep A mem last s = some s' := by
    intro s
    unfold isReturn at hlast
    split at hlast
    · exact ⟨_, rfl⟩
    · cases hlast
  obtain ⟨s1, h1⟩ := hstepLoad s
  obtain ⟨s2, h2⟩ := hstepArith s1
  obtain ⟨s3, h3⟩ := hstepStore s2
  obtain ⟨s4, h4⟩ := hstepReturn s3
  refine ⟨s4, ?_⟩
  simp only [valueRun, h1, h2, h3, h4, Option.bind_some]

/-- Each arm of `kernelOp` gives an op of its own kind once the type has an element type. -/
theorem eq_of_withElem (ty : LoweredType) (mk : ElemType → TensorWasmOp)
    (h : (match loweredTypeToElem ty with
      | some elem => Except.ok (mk elem, elem)
      | none => .error (AdapterError.unmatchedPattern (.elemType ty))) = .ok (op, elem)) : op = mk elem := by
  cases helem : loweredTypeToElem ty with
  | none =>
    rw [helem] at h
    cases h
  | some elem' =>
    rw [helem] at h
    cases h
    rfl

/-- The op of a blueprint takes two or three vectors. -/
theorem laneOps_kernelOp {middle : LoweredOp}
    (h : kernelOp middle = .ok (op, elem)) : (∃ o, op.laneOps = [.bin o 4]) ∨ op.laneOps = [.ter () 4] := by
  unfold kernelOp at h
  dsimp only at h
  split at h
  · obtain rfl := eq_of_withElem _ _ h
    exact .inl ⟨.add, rfl⟩
  · obtain rfl := eq_of_withElem _ _ h
    exact .inl ⟨.add, rfl⟩
  · obtain rfl := eq_of_withElem _ _ h
    exact .inl ⟨.mul, rfl⟩
  · obtain rfl := eq_of_withElem _ _ h
    exact .inl ⟨.mul, rfl⟩
  · obtain rfl := eq_of_withElem _ _ h
    exact .inr rfl
  · cases h

/-- One vector of four lanes is too little for the op, in either reading. -/
theorem run_stuck (r : Reading) (hop : (∃ o, op.laneOps = [.bin o 4]) ∨ op.laneOps = [.ter () 4])
    (elem : ElemType) {V : Type} (A : Interp ArithSym Unit V) (ρ : Nat → V) :
    r.run A ρ [.loadUnified elem BlueprintAdapter.defaultLanes, op,
      .storeUnified elem BlueprintAdapter.defaultLanes] = none := by
  have hprogram : laneProgram [.loadUnified elem BlueprintAdapter.defaultLanes, op,
      .storeUnified elem BlueprintAdapter.defaultLanes] = .load 4 :: (op.laneOps ++ [.store 4]) := rfl
  cases r with
  | vector | lanes =>
    rw [Reading.run, hprogram]
    rcases hop with ⟨o, ho⟩ | ho
    · rw [ho]
      rfl
    · rw [ho]
      rfl

/-- **No blueprint of the adapter stores what its function stores.** -/
theorem adapter_never_sound {func : LoweredFunction} {bp : TensorWasmKernelBlueprint}
    (h : loweredFunctionToBlueprint func = .ok bp) (r : Reading) :
    ¬ ∃ block, func.blocks = [block] ∧ StoresSame r block bp ∧ Expressible block bp := by
  rintro ⟨block, hblock, hsame, -⟩
  obtain ⟨block', first, middle, third, last, op, elem, hblocks, hops, hfirst, hmiddle, hthird, hlast, hbp⟩ :=
    exists_of_accepted h
  obtain rfl : block = block' := List.singleton_injective (hblock.symm.trans hblocks)
  obtain ⟨s, hs⟩ := exists_valueRun hfirst hmiddle hthird hlast
    (⟨fun _ _ _ => (), fun _ _ _ _ => ()⟩ : Interp ArithSym Unit Unit)
    (fun _ _ _ => ()) ⟨fun _ => (), [], []⟩
  rw [← hops] at hs
  obtain ⟨final, hfinal, -⟩ := hsame Unit _ _ _ s hs (fun _ => ()) fun _ _ _ => rfl
  rw [hbp, run_stuck r (laneOps_kernelOp hmiddle)] at hfinal
  cases hfinal

/-- A function of one block with two pointers, as the tests of the adapter build it. -/
def straightLineFn (load middle store : LoweredOp) : LoweredFunction where
  name := "vector_add"
  signature := ⟨[.ptr, .ptr], []⟩
  blocks := [⟨0, [(1, .ptr), (2, .ptr)], [load, middle, store, .return []]⟩]
  entry := 0

/-- `x + x` of one loaded `f32`. -/
def doubleFn : LoweredFunction :=
  straightLineFn (.load .f32 1 0 10) (.float .addF .f32 10 10 11) (.store .f32 11 2 0)

/-- The same with a load of an `f64` at offset 16 and a store of an `i8` at offset 3. -/
def mismatchedFn : LoweredFunction :=
  straightLineFn (.load .f64 1 16 10) (.float .addF .f32 10 10 11) (.store .i8 11 2 3)

theorem adapter_never_sound_double :
    ∃ bp, loweredFunctionToBlueprint doubleFn = .ok bp ∧
      ∀ r, ¬ ∃ block, doubleFn.blocks = [block] ∧ StoresSame r block bp ∧ Expressible block bp :=
  ⟨_, rfl, adapter_never_sound rfl⟩

/-- The function stores `3 + 3`, and its blueprint gets stuck in both readings; a load and a store that the blueprint
cannot express are accepted with the same blueprint. -/
theorem adapter_drops_operands :
    (∃ bp s, loweredFunctionToBlueprint doubleFn = .ok bp ∧
      valueRun (⟨fun _ a b => a + b, fun _ a b c => a * b + c⟩ : Interp ArithSym Unit Nat) (fun _ _ _ => 3)
        [.load .f32 1 0 10, .float .addF .f32 10 10 11, .store .f32 11 2 0, .return []] ⟨fun _ => 0, [], []⟩ = some s ∧
      s.stored = [6] ∧
      Reading.vector.run (⟨fun _ a b => a + b, fun _ a b c => a * b + c⟩ : Interp ArithSym Unit Nat) (fun _ => 3)
        bp.ops = none ∧
      Reading.lanes.run (⟨fun _ a b => a + b, fun _ a b c => a * b + c⟩ : Interp ArithSym Unit Nat) (fun _ => 3)
        bp.ops = none) ∧
    loweredFunctionToBlueprint mismatchedFn = loweredFunctionToBlueprint doubleFn :=
  ⟨⟨_, _, rfl, rfl, rfl, rfl, rfl⟩, rfl⟩

end TensorWasm.Jit
