import TensorWasm.Exec.Dispatch
import TensorWasm.Proof.Layout
import TensorWasm.Wasm.Trace

/-!
# Running a trampoline

One lemma per segment of a trampoline's body: allocate, store the arguments, dispatch, check the
code, load the results, free. Each says what its operators do to the machine and which events they have;
the loops over parameters and results are inductions over the packed layout.
-/

namespace TensorWasm.Jit

open Exec Lib Wasm

variable {H : Type} {imports : ImportCall H} {m : Machine H}

/-! ## Single operators -/

theorem stepOp_localGet {i : UInt32} {v : Value} (h : m.locals[i.toNat]? = some v) :
    stepOp imports (.localGet i) m = .ok (0, { m with stack := v :: m.stack }) := by
  unfold stepOp
  dsimp only
  rw [h]

variable {memory : Memory}

theorem stepOp_call {f : UInt32} {st : List Value} {host : H}
    (h : imports f m.stack m.memory m.host = some (st, memory, host)) :
    stepOp imports (.call f) m = .ok (0, { m with stack := st, memory := memory, host := host }) := by
  unfold stepOp
  dsimp only
  rw [h]

variable {base : UInt32} {off : Nat}

theorem accessRange_eq {align : UInt32} (hoff : off < 2 ^ 64) (width : Nat) :
    accessRange memory base { offset := UInt64.ofNat off, align := align, memory := 0 } width =
      if base.toNat + off + width ≤ memory.len then .ok (base.toNat + off) else .error .outOfBounds := by
  have hnat : (UInt64.ofNat off).toNat = off := UInt64.toNat_ofNat_of_lt' hoff
  simp [accessRange, hnat]

theorem stepOp_i32Ne {a b : UInt32} {st locals : List Value} {host : H} (h : a ≠ b) :
    stepOp imports .i32Ne ⟨.i32 b :: .i32 a :: st, locals, memory, host⟩ =
      .ok (0, ⟨.i32 1 :: st, locals, memory, host⟩) := by
  show Except.ok (0, Machine.mk (.i32 (if a ≠ b then 1 else 0) :: st) _ _ _) = _
  rw [if_pos h]

theorem stepOp_if {c : UInt32} {st locals : List Value} {host : H} (h : c ≠ 0) :
    stepOp imports (.if_ .empty) ⟨.i32 c :: st, locals, memory, host⟩ = .ok (0, ⟨st, locals, memory, host⟩) := by
  show Except.ok (if c ≠ 0 then 0 else 1, _) = _
  rw [if_pos h]

/-! ## Arguments and results -/

/-- The slots of values at packed offsets. -/
def packedSlots (base : Nat) (ts : List NumType) (os : List Nat) : List (Nat × Nat) :=
  List.zipWith (fun t o => (base + o, t.width)) ts os

/-- The event is an access to one of the slots, in the region at this address. -/
def OnSlot (scratch : UInt32) (slots : List (Nat × Nat)) (e : Event) : Prop :=
  ∃ slot ∈ slots, e = .access (scratch.toNat + slot.1) slot.2

theorem OnSlot.mono {scratch : UInt32} {slots slots' : List (Nat × Nat)} {e : Event} (h : OnSlot scratch slots e)
    (hsub : slots ⊆ slots') : OnSlot scratch slots' e := by
  obtain ⟨slot, hslot, he⟩ := h
  exact ⟨slot, hsub hslot, he⟩

/-- The last event is an access that is not inside the memory. -/
def EndsOutside (memory : Memory) (events : List Event) : Prop :=
  ∃ before addr width, events = before ++ [.access addr width] ∧ memory.len < addr + width

variable {scratchLocal : UInt32}

/-- One store accesses its slot, and traps if that is not inside the memory. -/
theorem storeArg_runs (imports : ImportCall H) {i : Nat} {v : Value}
    (hbase : m.locals[scratchLocal.toNat]? = some (.i32 base)) (hi : i < 2 ^ 32)
    (hv : m.locals[i]? = some v) (hoff : off < 2 ^ 64) :
    trace imports 0 (storeArg scratchLocal i (.num v.type) off) m = [.access (base.toNat + off) v.type.width] ∧
      execOps imports 0 (storeArg scratchLocal i (.num v.type) off) m =
        if base.toNat + off + v.type.width ≤ m.memory.len
        then .ok (0, { m with memory := m.memory.write (base.toNat + off) v.bytes })
        else .error .outOfBounds := by
  have hgets : Passes imports [.localGet scratchLocal, .localGet (UInt32.ofNat i)] m []
      { m with stack := v :: .i32 base :: m.stack } := by
    refine .cons (stepOp_localGet hbase) (.cons (stepOp_localGet ?_) (.nil _))
    rw [UInt32.toNat_ofNat_of_lt' hi]
    exact hv
  have hsplit : storeArg scratchLocal i (.num v.type) off = [.localGet scratchLocal, .localGet (UInt32.ofNat i)] ++
      [.store v.type { offset := UInt64.ofNat off, align := log2Align (.num v.type), memory := 0 }] := rfl
  rw [hsplit, hgets.trace_append, trace_single, execOps_append, hgets.steps, ok_bind, execOps_single]
  constructor
  · show [Event.access (base.toNat + (UInt64.ofNat off).toNat) v.type.width] = _
    rw [UInt64.toNat_ofNat_of_lt' hoff]
  · unfold stepOp
    dsimp only
    rw [if_neg (not_not.mpr rfl), accessRange_eq hoff]
    split <;> rfl

/-- The stores write the arguments at their packed offsets, up to the first that is not inside the memory. -/
theorem storeArgs_runs (imports : ImportCall H) {vs : List Value} {os : List Nat} {stop i : Nat}
    (hpacked : Packed off (vs.map Value.type) os stop) (hbase : m.locals[scratchLocal.toNat]? = some (.i32 base))
    (hlocals : ∀ j v, vs[j]? = some v → m.locals[i + j]? = some v) (hi : i + vs.length < 2 ^ 32)
    (hstop : stop < 2 ^ 64) :
    (∀ e ∈ trace imports 0 (storeArgs scratchLocal i (vs.map fun v => .num v.type) os) m,
        OnSlot base (packedSlots 0 (vs.map Value.type) os) e) ∧
      (Steps imports (storeArgs scratchLocal i (vs.map fun v => .num v.type) os) m
          { m with memory := writeArgs base.toNat vs os m.memory } ∨
        execOps imports 0 (storeArgs scratchLocal i (vs.map fun v => .num v.type) os) m = .error .outOfBounds ∧
          m.memory.len < base.toNat + stop ∧
          EndsOutside m.memory (trace imports 0 (storeArgs scratchLocal i (vs.map fun v => .num v.type) os) m)) := by
  induction vs generalizing os off i m with
  | nil =>
    cases os with
    | nil => exact ⟨nofun, .inl (.nil m)⟩
    | cons o os => exact absurd hpacked id
  | cons v vs ih =>
    cases os with
    | nil => exact absurd hpacked id
    | cons o os =>
      obtain ⟨hle, hrest⟩ := hpacked
      have hend := hrest.le_stop
      rw [List.length_cons] at hi
      have hhead : OnSlot base (packedSlots 0 ((v :: vs).map Value.type) (o :: os))
          (.access (base.toNat + o) v.type.width) := ⟨(0 + o, v.type.width), List.mem_cons_self, by rw [Nat.zero_add]⟩
      have hnext : ∀ j w, vs[j]? = some w → m.locals[i + 1 + j]? = some w := by
        intro j w hw
        rw [Nat.add_assoc, Nat.add_comm 1]
        exact hlocals (j + 1) w hw
      have hv : m.locals[i]? = some v := hlocals 0 v rfl
      obtain ⟨htrace, hexec⟩ := storeArg_runs imports hbase (by omega) hv (show o < 2 ^ 64 by omega)
      rw [List.map_cons, storeArgs]
      by_cases hfits : base.toNat + o + v.type.width ≤ m.memory.len
      · rw [if_pos hfits] at hexec
        have hfirst : Passes imports (storeArg scratchLocal i (.num v.type) o) m _ _ := ⟨hexec, htrace⟩
        obtain ⟨hevents, hdone⟩ :=
          ih (m := { m with memory := m.memory.write (base.toNat + o) v.bytes }) hrest hbase hnext (by omega)
        refine ⟨fun e he => ?_, hdone.imp hfirst.steps.append fun herror => ⟨?_, herror.2.1, ?_⟩⟩
        · rw [hfirst.trace_append] at he
          rcases List.mem_cons.mp he with rfl | he
          · exact hhead
          · exact (hevents e he).mono (List.subset_cons_self _ _)
        · rw [execOps_append, hexec]
          exact herror.1
        · obtain ⟨before, addr, width, heq, hlt⟩ := herror.2.2
          exact ⟨_ :: before, addr, width, by rw [hfirst.trace_append, heq]; rfl, hlt⟩
      · rw [if_neg hfits] at hexec
        refine ⟨fun e he => ?_, .inr ⟨?_, by omega, [], _, _, ?_, Nat.lt_of_not_le hfits⟩⟩
        · rw [Wasm.trace_append, hexec, htrace] at he
          obtain rfl := List.mem_singleton.mp he
          exact hhead
        · rw [execOps_append, hexec, error_bind]
        · rw [Wasm.trace_append, hexec, htrace]
          rfl

theorem passes_loadResult {t : NumType} (hbase : m.locals[scratchLocal.toNat]? = some (.i32 base))
    (hoff : off < 2 ^ 64) (hfits : base.toNat + off + t.width ≤ m.memory.len) :
    Passes imports (loadResult scratchLocal (.num t) off) m [.access (base.toNat + off) t.width]
      { m with stack := t.decode (m.memory.read (base.toNat + off) t.width) :: m.stack } := by
  have hload : stepOp imports
      (.load t { offset := UInt64.ofNat off, align := log2Align (.num t), memory := 0 })
      { m with stack := .i32 base :: m.stack } =
      .ok (0, { m with stack := t.decode (m.memory.read (base.toNat + off) t.width) :: m.stack }) := by
    unfold stepOp
    dsimp only
    rw [accessRange_eq hoff, if_pos hfits]
    rfl
  have hpass := Passes.cons (stepOp_localGet hbase) (.cons hload (.nil _))
  refine ⟨hpass.steps, hpass.trace.trans ?_⟩
  show [Event.access (base.toNat + (UInt64.ofNat off).toNat) t.width] = _
  rw [UInt64.toNat_ofNat_of_lt' hoff]

/-- The loads of all results push them in order, each from its slot. -/
theorem passes_loadResults (imports : ImportCall H) {start : Nat} {ts : List NumType} {os : List Nat} {stop : Nat}
    (hpacked : Packed off ts os stop) (hbase : m.locals[scratchLocal.toNat]? = some (.i32 base))
    (hstop : start + stop < 2 ^ 64) (hfits : base.toNat + start + stop ≤ m.memory.len) :
    ∃ events, (∀ e ∈ events, OnSlot base (packedSlots start ts os) e) ∧
      Passes imports (loadResults scratchLocal start (ts.map .num) os) m events
        { m with stack := (readResults m.memory (base.toNat + start) ts os).reverse ++ m.stack } := by
  induction hpacked using Packed.induction generalizing m with
  | nil => exact ⟨[], nofun, .nil m⟩
  | @cons off t ts o os hle hrest ih =>
    have hend := hrest.le_stop
    have hfirst : Passes imports (loadResult scratchLocal (.num t) (start + o)) m _ _ :=
      passes_loadResult hbase (by omega) (by omega)
    obtain ⟨events, hevents, hnext⟩ := ih (m := ⟨t.decode (m.memory.read (base.toNat + (start + o)) t.width) ::
      m.stack, m.locals, m.memory, m.host⟩) hbase hfits
    refine ⟨_ :: events, fun e he => ?_, by simpa [loadResults, readResults, Nat.add_assoc] using hfirst.append hnext⟩
    rcases List.mem_cons.mp he with rfl | he
    · exact ⟨(start + o, t.width), List.mem_cons_self, rfl⟩
    · exact (hevents e he).mono (List.subset_cons_self _ _)

/-! ## Host calls -/

section Host

/-- The imports have three different function indices. -/
structure Distinct (host : DispatchImports) : Prop where
  dispatch_alloc : host.dispatch ≠ host.alloc
  free_alloc : host.free ≠ host.alloc
  free_dispatch : host.free ≠ host.dispatch

/-- The check of the return code. -/
def checkOps (host : DispatchImports) (rcLocal scratchLocal size : UInt32) : List Operator :=
  [.localTee rcLocal, .i32Const 0, .i32Ne, .if_ .empty, .localGet scratchLocal, .i32Const size,
    .call host.free, .unreachable, .end_]

variable {host : DispatchImports} {st locals : List Value} {mem mem' : Memory} {h h' : H}
  {rcLocal size scratch : UInt32}

theorem passes_alloc (locals : List Value) (scratchLocal : UInt32) {ptr : UInt32}
    (hcall : imports host.alloc (.i32 size :: st) mem h = some (.i32 ptr :: st, mem', h')) :
    Passes imports [.i32Const size, .call host.alloc, .localSet scratchLocal] ⟨st, locals, mem, h⟩
      [.call host.alloc (.i32 size :: st)] ⟨st, locals.set scratchLocal.toNat (.i32 ptr), mem', h'⟩ :=
  .cons rfl (.cons (stepOp_call hcall) (.cons rfl (.nil _)))

/-- A zero code skips the block. -/
theorem passes_skip :
    Passes imports (checkOps host rcLocal scratchLocal size) ⟨.i32 0 :: st, locals, mem, h⟩ []
      ⟨st, locals.set rcLocal.toNat (.i32 0), mem, h⟩ := ⟨rfl, rfl⟩

theorem passes_dispatch {lo hi : UInt64} {alen rlen rc : UInt32}
    (hscratch : locals[scratchLocal.toNat]? = some (.i32 scratch))
    (hcall : imports host.dispatch (.i32 rlen :: .i32 alen :: .i32 scratch :: .i64 hi :: .i64 lo :: st) mem h =
      some (.i32 rc :: st, mem', h')) :
    Passes imports
      [.i64Const lo, .i64Const hi, .localGet scratchLocal, .i32Const alen, .i32Const rlen, .call host.dispatch]
      ⟨st, locals, mem, h⟩
      [.call host.dispatch (.i32 rlen :: .i32 alen :: .i32 scratch :: .i64 hi :: .i64 lo :: st)]
      ⟨.i32 rc :: st, locals, mem', h'⟩ :=
  .cons rfl (.cons rfl (.cons (stepOp_localGet hscratch) (.cons rfl (.cons rfl (.cons (stepOp_call hcall) (.nil _))))))

theorem passes_free (hscratch : locals[scratchLocal.toNat]? = some (.i32 scratch))
    (hcall : imports host.free (.i32 size :: .i32 scratch :: st) mem h = some (st, mem', h')) :
    Passes imports [.localGet scratchLocal, .i32Const size, .call host.free] ⟨st, locals, mem, h⟩
      [.call host.free (.i32 size :: .i32 scratch :: st)] ⟨st, locals, mem', h'⟩ :=
  .cons (stepOp_localGet hscratch) (.cons rfl (.cons (stepOp_call hcall) (.nil _)))

/-- A code that is not zero frees the slot and traps. -/
theorem check_trap {rc : UInt32} (hrc : rc ≠ 0)
    (hscratch : (locals.set rcLocal.toNat (.i32 rc))[scratchLocal.toNat]? = some (.i32 scratch))
    (hcall : imports host.free (.i32 size :: .i32 scratch :: st) mem h = some (st, mem', h')) (rest : List Operator) :
    execOps imports 0 (checkOps host rcLocal scratchLocal size ++ rest) ⟨.i32 rc :: st, locals, mem, h⟩ =
        .error .unreachable ∧
      trace imports 0 (checkOps host rcLocal scratchLocal size ++ rest) ⟨.i32 rc :: st, locals, mem, h⟩ =
        [.call host.free (.i32 size :: .i32 scratch :: st)] := by
  have hpass : Passes imports
      [.localTee rcLocal, .i32Const 0, .i32Ne, .if_ .empty, .localGet scratchLocal, .i32Const size, .call host.free]
      ⟨.i32 rc :: st, locals, mem, h⟩ [.call host.free (.i32 size :: .i32 scratch :: st)] _ :=
    .cons rfl (.cons rfl (.cons (stepOp_i32Ne hrc) (.cons (stepOp_if (by decide)) (passes_free hscratch hcall))))
  have hsplit : checkOps host rcLocal scratchLocal size ++ rest =
      [.localTee rcLocal, .i32Const 0, .i32Ne, .if_ .empty, .localGet scratchLocal, .i32Const size,
        .call host.free] ++ (.unreachable :: .end_ :: rest) := rfl
  rw [hsplit, execOps_append, hpass.steps, hpass.trace_append]
  exact ⟨rfl, rfl⟩

variable (env : DispatchEnv) {store : Store}

theorem hostImports_alloc {s : HostState} {ret : Int32}
    (h : Exec.alloc size.toInt32 env.growOk ⟨store.arena, some mem⟩ = (s, ret)) :
    hostImports env host host.alloc (.i32 size :: st) mem store =
      some (.i32 ret.toUInt32 :: st, s.memory.getD mem, ⟨s.arena, store.events ++ [.alloc ret]⟩) := by
  simp only [hostImports, if_true, h]

variable (hd : Distinct host)

include hd

theorem hostImports_dispatch {lo hi : UInt64} {alen rlen : UInt32} {memory : Option Memory} {ret : Int32}
    (h : dispatch env lo.toInt64 hi.toInt64 scratch.toInt32 alen.toInt32 rlen.toInt32 (some mem) = (memory, ret)) :
    hostImports env host host.dispatch (.i32 rlen :: .i32 alen :: .i32 scratch :: .i64 hi :: .i64 lo :: st) mem store =
      some (.i32 ret.toUInt32 :: st, memory.getD mem, ⟨store.arena, store.events ++ [.dispatch mem ret]⟩) := by
  simp [hostImports, if_neg hd.dispatch_alloc, h]

theorem hostImports_free :
    hostImports env host host.free (.i32 size :: .i32 scratch :: st) mem store =
      some (st, mem, ⟨free scratch.toInt32 size.toInt32 store.arena, store.events ++ [.free]⟩) := by
  simp [hostImports, if_neg hd.free_alloc, if_neg hd.free_dispatch]

end Host

end TensorWasm.Jit
