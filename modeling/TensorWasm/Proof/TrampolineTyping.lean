import TensorWasm.Jit.Rewrite
import TensorWasm.Proof.Layout
import TensorWasm.Wasm.Validate

/-!
# Trampolines validate

The body that `build_trampoline` returns has the signature it was built for, in any function context in which
the three imports have the types that the rewriter gives them. One lemma for each segment, as in
`TrampolineRun`; the loops over parameters and results are inductions over the types.
-/

namespace TensorWasm.Jit

open Lib Wasm
open Option (bind_some)
open ValType (num)

/-- The imports have their types, and there is a memory 0. -/
structure Links (ctx : FuncContext) (host : DispatchImports) : Prop where
  memory : ctx.hasMemory = true
  imports : [ctx.func host.dispatch, ctx.func host.alloc, ctx.func host.free] = RewriterEnv.importTypes

/-! ## Segments -/

section Segments

variable {ctx : FuncContext} {host : DispatchImports} {locals : List ValType} {scratchLocal : UInt32}
  {fr : Frame} {frs : List Frame} (hmemory : ctx.hasMemory = true)

include hmemory

theorem valid_memArg (t : NumType) {off : Nat} (hoff : off < 2 ^ 32) :
    MemArg.valid ctx { offset := UInt64.ofNat off, align := log2Align (.num t), memory := 0 } t = true := by
  have hnat : (UInt64.ofNat off).toNat = off := UInt64.toNat_ofNat_of_lt' (Nat.lt_trans hoff (by decide))
  have halign : 2 ^ (log2Align (.num t)).toNat ≤ t.width := by cases t <;> decide
  rw [MemArg.valid, hmemory, hnat, decide_eq_true hoff, decide_eq_true halign]
  rfl

theorem validate_storeArg (hscratch : locals[scratchLocal.toNat]? = some (.num .i32))
    {i off : Nat} {t : NumType} (hi : i < 2 ^ 32) (ht : locals[i]? = some (.num t)) (hoff : off < 2 ^ 32) :
    validateOps ctx locals (storeArg scratchLocal i (.num t) off) (fr :: frs) = some (fr :: frs) := by
  refine validateOps_cons (validateOp_localGet hscratch) (validateOps_cons (validateOp_localGet ?_)
    (validateOps_cons (validateOp_store (valid_memArg hmemory t hoff)) rfl))
  rw [UInt32.toNat_ofNat_of_lt' hi]
  exact ht

theorem validate_storeArgs (hscratch : locals[scratchLocal.toNat]? = some (.num .i32)) {ts : List NumType}
    {os : List Nat} {off stop i : Nat} (hpacked : Packed off ts os stop)
    (hlocals : ∀ j t, ts[j]? = some t → locals[i + j]? = some (.num t)) (hi : i + ts.length < 2 ^ 32)
    (hstop : stop < 2 ^ 32) :
    validateOps ctx locals (storeArgs scratchLocal i (ts.map .num) os) (fr :: frs) = some (fr :: frs) := by
  induction hpacked using Packed.induction generalizing i with
  | nil => rfl
  | @cons off t ts o os hle hrest ih =>
    have hend := hrest.le_stop
    rw [List.length_cons] at hi
    have hfirst : validateOps ctx locals (storeArg scratchLocal i (.num t) o) (fr :: frs) = some (fr :: frs) :=
      validate_storeArg hmemory hscratch (by omega) (hlocals 0 t rfl) (by omega)
    rw [List.map_cons, storeArgs, validateOps_append, hfirst, bind_some]
    refine ih (fun j u hu => ?_) (by omega)
    rw [Nat.add_assoc, Nat.add_comm 1]
    exact hlocals (j + 1) u hu

theorem validate_loadResults (hscratch : locals[scratchLocal.toNat]? = some (.num .i32)) {ts : List NumType}
    {os : List Nat} {off stop base : Nat} (hpacked : Packed off ts os stop) (hstop : base + stop < 2 ^ 32) :
    validateOps ctx locals (loadResults scratchLocal base (ts.map .num) os) (fr :: frs) =
      some (fr.pushAll (ts.map .num) :: frs) := by
  induction hpacked using Packed.induction generalizing fr with
  | nil => rfl
  | @cons off t ts o os hle hrest ih =>
    have hend := hrest.le_stop
    have hvalid := valid_memArg hmemory t (show base + o < 2 ^ 32 by omega)
    have hfirst : validateOps ctx locals (loadResult scratchLocal (.num t) (base + o)) (fr :: frs) =
        some (fr.push (.num t) :: frs) :=
      validateOps_cons (validateOp_localGet hscratch) (validateOps_cons (validateOp_load hvalid) rfl)
    rw [List.map_cons, loadResults, validateOps_append, hfirst, bind_some, ih]
    simp [Frame.pushAll, Frame.push]

omit hmemory

variable (hlinks : Links ctx host)

include hlinks

theorem Links.func_dispatch : ctx.func host.dispatch =
    some ⟨[.num .i64, .num .i64, .num .i32, .num .i32, .num .i32], [.num .i32]⟩ :=
  (List.cons.inj hlinks.imports).1

theorem Links.func_alloc : ctx.func host.alloc = some ⟨[.num .i32], [.num .i32]⟩ :=
  (List.cons.inj (List.cons.inj hlinks.imports).2).1

theorem Links.func_free : ctx.func host.free = some ⟨[.num .i32, .num .i32], []⟩ :=
  (List.cons.inj (List.cons.inj (List.cons.inj hlinks.imports).2).2).1

variable (hscratch : locals[scratchLocal.toNat]? = some (.num .i32))

include hscratch

theorem validate_alloc (size : UInt32) :
    validateOps ctx locals [.i32Const size, .call host.alloc, .localSet scratchLocal] (fr :: frs) =
      some (fr :: frs) := by
  have hcall : validateOp ctx locals (.call host.alloc) (fr.push (.num .i32) :: frs) =
      some (fr.push (.num .i32) :: frs) := validateOp_call hlinks.func_alloc rfl
  exact validateOps_cons rfl (validateOps_cons hcall (validateOps_cons (validateOp_localSet hscratch) rfl))

theorem validate_dispatch (lo hi : UInt64) (alen rlen : UInt32) :
    validateOps ctx locals
        [.i64Const lo, .i64Const hi, .localGet scratchLocal, .i32Const alen, .i32Const rlen, .call host.dispatch]
        (fr :: frs) =
      some (fr.push (.num .i32) :: frs) := by
  have hcall : validateOp ctx locals (.call host.dispatch)
      (((((fr.push (.num .i64)).push (.num .i64)).push (.num .i32)).push (.num .i32)).push (.num .i32) :: frs) =
      some (fr.push (.num .i32) :: frs) := validateOp_call hlinks.func_dispatch rfl
  exact validateOps_cons rfl (validateOps_cons rfl (validateOps_cons (validateOp_localGet hscratch)
    (validateOps_cons rfl (validateOps_cons rfl (validateOps_cons hcall rfl)))))

theorem validate_free (size : UInt32) (ops : List Operator) :
    validateOps ctx locals (.localGet scratchLocal :: .i32Const size :: .call host.free :: ops) (fr :: frs) =
      validateOps ctx locals ops (fr :: frs) := by
  have hcall : validateOp ctx locals (.call host.free) ((fr.push (.num .i32)).push (.num .i32) :: frs) =
      some (fr :: frs) := validateOp_call hlinks.func_free rfl
  exact validateOps_cons (validateOp_localGet hscratch) (validateOps_cons rfl (validateOps_cons hcall rfl))

/-- The block of the trap path leaves nothing, and takes nothing from the operands around it. -/
theorem validate_check {rcLocal : UInt32} (hrc : locals[rcLocal.toNat]? = some (.num .i32)) (size : UInt32) :
    validateOps ctx locals
        [.localTee rcLocal, .i32Const 0, .i32Ne, .if_ .empty, .localGet scratchLocal, .i32Const size,
          .call host.free, .unreachable, .end_]
        (fr.push (.num .i32) :: frs) =
      some (fr :: frs) := by
  have hif : validateOp ctx locals (.if_ .empty) (fr.push (.num .i32) :: frs) =
      some (⟨[], [], false⟩ :: fr :: frs) := rfl
  exact validateOps_cons (validateOp_localTee hrc) (validateOps_cons rfl (validateOps_cons rfl
    (validateOps_cons hif (validate_free hlinks hscratch size _))))

end Segments

/-! ## The whole body -/

theorem popAll_pushAll (ts : List ValType) (fr : Frame) : (fr.pushAll ts).popAll ts.reverse = some fr := by
  have hgen : ∀ (us : List ValType) (fr : Frame),
      Frame.popAll us { fr with operands := us ++ fr.operands } = some fr := by
    intro us
    induction us with
    | nil => exact fun fr => rfl
    | cons u us ih =>
      intro fr
      rw [Frame.popAll, Frame.pop]
      simp only [List.cons_append, if_true, bind_some]
      exact ih fr
  exact hgen ts.reverse fr

theorem validate_end (ctx : FuncContext) (locals ts : List ValType) :
    validateOps ctx locals [.end_] [Frame.pushAll ts ⟨[], ts, false⟩] = some [] := by
  refine validateOps_cons ?_ rfl
  unfold validateOp
  dsimp only
  rw [show (Frame.pushAll ts ⟨[], ts, false⟩).results = ts from rfl, popAll_pushAll]
  rfl

/-- **A trampoline validates against the signature it was built for.** -/
theorem trampoline_validates {fp : UInt64} {host : DispatchImports} {params results : List ValType} {body : FuncBody}
    (h : buildTrampoline fp host params results = .ok body) {ctx : FuncContext} (hlinks : Links ctx host) :
    body.validates ctx ⟨params, results⟩ = true := by
  obtain ⟨ps, rs, argL, resL, rfl, rfl, hargs, hresults, hsize, rfl⟩ := exists_layouts h
  obtain ⟨-, stopA, hstopA, hpackedA⟩ := packLayout_eq_ok hargs
  obtain ⟨-, stopR, hstopR, hpackedR⟩ := packLayout_eq_ok hresults
  have hlen : ps.length + 1 < 2 ^ 32 := by
    have := hpackedA.le_stop
    omega
  have hscratchIdx : (UInt32.ofNat (ps.map num).length).toNat = ps.length := by
    rw [List.length_map]
    exact UInt32.toNat_ofNat_of_lt' (by rw [UInt32.size]; omega)
  have hrcIdx : (UInt32.ofNat (ps.map num).length + 1).toNat = ps.length + 1 := by
    rw [UInt32.toNat_add, hscratchIdx]
    exact Nat.mod_eq_of_lt hlen
  generalize hlocalsEq : ps.map num ++ [.num .i32, .num .i32] = locals
  have hscratch : locals[(UInt32.ofNat (ps.map num).length).toNat]? = some (.num .i32) := by
    rw [hscratchIdx, ← hlocalsEq]
    simp
  have hrc : locals[(UInt32.ofNat (ps.map num).length + 1).toNat]? = some (.num .i32) := by
    rw [hrcIdx, ← hlocalsEq]
    simp
  have hlocals : ∀ j t, ps[j]? = some t → locals[0 + j]? = some (.num t) := by
    intro j t ht
    have hj := (List.getElem?_eq_some_iff.mp ht).1
    rw [← hlocalsEq, Nat.zero_add, List.getElem?_append_left (by rwa [List.length_map]), List.getElem?_map, ht]
    rfl
  show (validateOps ctx (ps.map num ++ [.num .i32, .num .i32]) _ [⟨[], rs.map .num, false⟩] == some []) = true
  rw [beq_iff_eq, hlocalsEq]
  simp only [trampolineOps, List.append_assoc]
  rw [validateOps_append, validate_alloc hlinks hscratch, bind_some, validateOps_append,
    validate_storeArgs hlinks.memory hscratch hpackedA hlocals (by omega) (by omega), bind_some,
    validateOps_append, validate_dispatch hlinks hscratch, bind_some, validateOps_append,
    validate_check hlinks hscratch hrc, bind_some, validateOps_append,
    validate_loadResults hlinks.memory hscratch hpackedR (by omega), bind_some,
    validate_free hlinks hscratch, validate_end]

end TensorWasm.Jit
