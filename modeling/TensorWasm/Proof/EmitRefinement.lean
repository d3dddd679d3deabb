import TensorWasm.Proof.LaneReading

/-!
# The emitter against the reference

`lowerBody` writes the *scalar-wise* reading of a blueprint: `lowerOps_sim` runs the emitted body
next to `scalStep` and keeps the register file, the two byte offsets and the output buffer in step
with it. The reference runs the *vector-wise* reading. So the emitted kernel refines the reference
exactly when the two readings agree, which `Lib/LaneFlow.lean` decides from the op list
(`emit_refines_reference_iff`): they do not as soon as an op of two or more lanes feeds a store.
-/

namespace TensorWasm.Jit

open Lib List
open TensorWasmOp (isF32)

/-! ## The emitted body computes the scalar-wise reading -/

section Simulation

variable {fo : F32Ops} {inputs : Bytes} {m0 : PtxState}

/-- The lines emitted so far, run from `m0`, reach `m`, which holds the lane state `ls`. -/
structure EmitSim (fo : F32Ops) (inputs : Bytes) (m0 : PtxState) (es : EmitState)
    (m : PtxState) (ls : LaneState (BitVec 32)) : Prop where
  run : execBody fo inputs es.body m0 = some m
  stack : ls.stack = es.valueStack.map m.f
  live : ∀ r ∈ es.valueStack, r < es.nextF
  inOff : es.inOff = 4 * ls.cursor
  outOff : es.outOff = 4 * ls.out.length
  out : ∀ i, m.out i = (ls.out.flatMap wordBytes)[i]?

/-- Some machine state is in step with the lane state. -/
def InStep (fo : F32Ops) (inputs : Bytes) (m0 : PtxState) (es : EmitState)
    (ls : LaneState (BitVec 32)) : Prop := ∃ m, EmitSim fo inputs m0 es m ls

theorem inStep_init (f r : Nat → BitVec 32) : InStep fo inputs (.fresh f r) .init .init :=
  ⟨.fresh f r, rfl, rfl, by simp [EmitState.init], rfl, rfl, fun _ => rfl⟩

/-- A line that changes no state. -/
theorem InStep.write {es : EmitState} {ls : LaneState (BitVec 32)} {i : PtxInstr} (h : InStep fo inputs m0 es ls)
    (hi : ∀ m, execInstr fo inputs i m = some m) : InStep fo inputs m0 (es.write i) ls := by
  obtain ⟨m, h⟩ := h
  refine ⟨m, ?_, h.stack, h.live, h.inOff, h.outOff, h.out⟩
  simp [EmitState.write, execBody_append, h.run, execBody, hi]

theorem map_update_of_lt {rs : List Nat} {n : Nat} (h : ∀ r ∈ rs, r < n)
    (f : Nat → BitVec 32) (w : BitVec 32) : rs.map (Function.update f n w) = rs.map f := by
  refine map_congr_left fun r hr => Function.update_of_ne ?_ _ _
  exact Nat.ne_of_lt (h r hr)

variable {ls ls' : LaneState (BitVec 32)} {es es' : EmitState} {rest : List Nat}

/-- Writing a fresh `%f` register and pushing it, whatever the instruction that wrote it. -/
theorem EmitSim.push {m : PtxState} {i : PtxInstr} {w : BitVec 32} (h : EmitSim fo inputs m0 es m ls)
    (hi : execInstr fo inputs i m = some (m.setReg .f32 es.nextF w)) (hbody : es'.body = es.body ++ [i])
    (hstack : es'.valueStack = es.nextF :: rest) (hnext : es'.nextF = es.nextF + 1) (hrest : ∀ r ∈ rest, r < es.nextF)
    (hin : es'.inOff = 4 * ls'.cursor) (hout : es'.outOff = es.outOff) (hout' : ls'.out = ls.out)
    (hls : ls'.stack = w :: rest.map m.f) : InStep fo inputs m0 es' ls' := by
  refine ⟨m.setReg .f32 es.nextF w, ?_, ?_, ?_, hin, ?_, ?_⟩
  · simp [hbody, execBody_append, h.run, execBody, hi]
  · simp [hls, hstack, PtxState.setReg, map_update_of_lt hrest]
  · intro r hr
    rw [hstack] at hr
    rcases mem_cons.mp hr with rfl | hr
    · omega
    · have := hrest r hr
      omega
  · rw [hout, hout', h.outOff]
  · intro i
    rw [hout']
    exact h.out i

theorem alloc_f32_eq_ok {s : EmitState} {p : Nat × EmitState} (h : alloc .f32 s = .ok p) :
    p = (s.nextF, { s with nextF := s.nextF + 1 }) := by
  obtain ⟨next, h1, h2⟩ := bind_eq_ok.mp h
  rw [checkedAddU32_eq_ok h1] at h2
  exact (Except.ok.inj h2).symm

variable {mn : Mnemonic}

theorem lowerLane2_eq_ok {a b : Nat} (hvs : es.valueStack = b :: a :: rest) (h : lowerLane2 mn .f32 es = .ok es') :
    es' = { es with body := es.body ++ [.arith2 mn .f32 es.nextF a b],
                    valueStack := es.nextF :: rest, nextF := es.nextF + 1 } := by
  simp only [lowerLane2, popOrAlloc, hvs, ok_bind] at h
  obtain ⟨p, hp, h⟩ := bind_eq_ok.mp h
  obtain rfl := alloc_f32_eq_ok hp
  exact (Except.ok.inj h).symm

theorem lowerLane3_eq_ok {a b c : Nat} (hvs : es.valueStack = c :: b :: a :: rest)
    (h : lowerLane3 mn .f32 es = .ok es') :
    es' = { es with body := es.body ++ [.arith3 mn .f32 es.nextF a b c],
                    valueStack := es.nextF :: rest, nextF := es.nextF + 1 } := by
  simp only [lowerLane3, popOrAlloc, hvs, ok_bind] at h
  obtain ⟨p, hp, h⟩ := bind_eq_ok.mp h
  obtain rfl := alloc_f32_eq_ok hp
  exact (Except.ok.inj h).symm

theorem lowerLaneLoad_eq_ok (h : lowerLaneLoad .f32 es = .ok es') :
    es' = { es with body := es.body ++ [.ld .f32 .f32 es.nextF es.inOff],
                    valueStack := es.nextF :: es.valueStack, nextF := es.nextF + 1,
                    inOff := es.inOff + 4 } := by
  obtain ⟨p, hp, h⟩ := bind_eq_ok.mp h
  obtain rfl := alloc_f32_eq_ok hp
  obtain ⟨off, hoff, h⟩ := bind_eq_ok.mp h
  obtain rfl := checkedAddU32_eq_ok hoff
  exact (Except.ok.inj h).symm

theorem lowerLaneStore_eq_ok {src : Nat} (hvs : es.valueStack = src :: rest) (h : lowerLaneStore .f32 es = .ok es') :
    es' = { es with body := es.body ++ [.st .f32 .f32 src es.outOff], valueStack := rest,
                    outOff := es.outOff + 4 } := by
  simp only [lowerLaneStore, popOrAlloc, hvs, ok_bind] at h
  obtain ⟨off, hoff, h⟩ := bind_eq_ok.mp h
  obtain rfl := checkedAddU32_eq_ok hoff
  exact (Except.ok.inj h).symm

variable {k : Nat}

theorem inStep_lane2 {o : ArithSym} (hmn : mn.apply2 fo = some (fo.interp.bin o))
    (h : InStep fo inputs m0 es ls) (hls : scalLane fo.interp (inputWord inputs) (.bin o k) ls = some ls')
    (hes : lowerLane2 mn .f32 es = .ok es') : InStep fo inputs m0 es' ls' := by
  obtain ⟨m, h⟩ := h
  obtain ⟨st, hst, rfl⟩ := Option.map_eq_some_iff.mp hls
  have hlive := h.live
  rcases hvs : es.valueStack with _ | ⟨b, _ | ⟨a, rest⟩⟩
  · simp [h.stack, hvs, binLane] at hst
  · simp [h.stack, hvs, binLane] at hst
  · rw [hvs] at hlive
    rw [h.stack, hvs] at hst
    cases hst
    obtain rfl := lowerLane2_eq_ok hvs hes
    have hexec : execInstr fo inputs (.arith2 mn .f32 es.nextF a b) m =
        some (m.setReg .f32 es.nextF (fo.interp.bin o (m.f a) (m.f b))) := by
      simp [execInstr, hmn, PtxState.reg]
    exact h.push hexec rfl rfl rfl (fun r hr => hlive r (by simp [hr])) h.inOff rfl rfl rfl

theorem inStep_lane3 (h : InStep fo inputs m0 es ls)
    (hls : scalLane fo.interp (inputWord inputs) (.ter () k) ls = some ls')
    (hes : lowerLane3 .fmaRnF32 .f32 es = .ok es') : InStep fo inputs m0 es' ls' := by
  obtain ⟨m, h⟩ := h
  obtain ⟨st, hst, rfl⟩ := Option.map_eq_some_iff.mp hls
  have hlive := h.live
  rcases hvs : es.valueStack with _ | ⟨c, _ | ⟨b, _ | ⟨a, rest⟩⟩⟩
  · simp [h.stack, hvs, terLane] at hst
  · simp [h.stack, hvs, terLane] at hst
  · simp [h.stack, hvs, terLane] at hst
  · rw [hvs] at hlive
    rw [h.stack, hvs] at hst
    cases hst
    obtain rfl := lowerLane3_eq_ok hvs hes
    have hexec : execInstr fo inputs (.arith3 .fmaRnF32 .f32 es.nextF a b c) m =
        some (m.setReg .f32 es.nextF (fo.fma (m.f a) (m.f b) (m.f c))) := rfl
    exact h.push hexec rfl rfl rfl (fun r hr => hlive r (by simp [hr])) h.inOff rfl rfl rfl

theorem inStep_laneLoad (h : InStep fo inputs m0 es ls)
    (hls : scalLane fo.interp (inputWord inputs) (.load k) ls = some ls') (hc : 4 * ls'.cursor ≤ inputs.length)
    (hes : lowerLaneLoad .f32 es = .ok es') : InStep fo inputs m0 es' ls' := by
  obtain ⟨m, h⟩ := h
  cases hls
  have hexec : execInstr fo inputs (.ld .f32 .f32 es.nextF es.inOff) m =
      some (m.setReg .f32 es.nextF (inputWord inputs ls.cursor)) := by
    have hread := readWord_eq_some (show 4 * ls.cursor + 4 ≤ inputs.length from hc)
    simp [execInstr, h.inOff, hread]
  have hoff : es.inOff + 4 = 4 * (ls.cursor + 1) := by
    rw [h.inOff]
    omega
  obtain rfl := lowerLaneLoad_eq_ok hes
  refine h.push hexec rfl rfl rfl h.live hoff rfl rfl ?_
  show _ :: ls.stack = _
  rw [h.stack]

/-- Appending one word to the output buffer. -/
theorem getElem?_flatMap_append_word (ws : List (BitVec 32)) (w : BitVec 32) (i : Nat) :
    ((ws ++ [w]).flatMap wordBytes)[i]? =
      if 4 * ws.length ≤ i ∧ i < 4 * ws.length + 4 then (wordBytes w)[i - 4 * ws.length]?
      else (ws.flatMap wordBytes)[i]? := by
  have hlen := length_flatMap_wordBytes ws
  simp only [flatMap_append, flatMap_cons, flatMap_nil, append_nil]
  by_cases h1 : i < 4 * ws.length
  · rw [List.getElem?_append_left (by omega), if_neg (by omega)]
  · rw [List.getElem?_append_right (by omega), hlen]
    by_cases h2 : i < 4 * ws.length + 4
    · rw [if_pos (by omega)]
    · rw [if_neg (by omega), List.getElem?_eq_none (by simp; omega),
        List.getElem?_eq_none (by omega)]

theorem inStep_laneStore (h : InStep fo inputs m0 es ls)
    (hls : scalLane fo.interp (inputWord inputs) (.store k) ls = some ls')
    (hes : lowerLaneStore .f32 es = .ok es') : InStep fo inputs m0 es' ls' := by
  obtain ⟨m, h⟩ := h
  obtain ⟨st, c, out⟩ := ls
  have hstack : st = es.valueStack.map m.f := h.stack
  have hlive := h.live
  rcases hvs : es.valueStack with _ | ⟨src, rest⟩
  · obtain rfl : st = [] := by rw [hstack, hvs]; rfl
    exact absurd hls (by simp [scalLane])
  · obtain rfl : st = m.f src :: rest.map m.f := by rw [hstack, hvs]; rfl
    rw [hvs] at hlive
    cases hls
    obtain rfl := lowerLaneStore_eq_ok hvs hes
    refine ⟨m.writeWord es.outOff (m.f src), ?_, rfl, fun r hr => hlive r (by simp [hr]), h.inOff, ?_, ?_⟩
    · simp [execBody_append, h.run, execBody, execInstr, PtxState.reg]
    · show es.outOff + 4 = 4 * (out ++ [m.f src]).length
      rw [h.outOff, length_append]
      simp only [length_singleton]
      omega
    · intro i
      rw [getElem?_flatMap_append_word]
      simp [PtxState.writeWord, h.outOff, h.out i]

/-- The lane loop: if one emitted lane keeps in step, so does the whole op. -/
theorem lowerLanes_sim {low : EmitState → Except EmitError EmitState} {op : BlueprintLaneOp}
    (hlane : ∀ {es es' ls ls'}, InStep fo inputs m0 es ls → scalLane fo.interp (inputWord inputs) op ls = some ls' →
      4 * ls'.cursor ≤ inputs.length → low es = .ok es' → InStep fo inputs m0 es' ls')
    (h : InStep fo inputs m0 es ls) (hls : laneRun (scalStep fo.interp (inputWord inputs)) [op] ls = some ls')
    (hc : 4 * ls'.cursor ≤ inputs.length) (hes : lowerLanes low op.lanes es = .ok es') :
    InStep fo inputs m0 es' ls' := by
  rw [laneRun_singleton, scalStep] at hls
  generalize op.lanes = n at hls hes
  induction n generalizing es ls with
  | zero =>
    cases hls
    cases hes
    exact h
  | succ n ih =>
    obtain ⟨ls1, hls1, hls2⟩ := Option.bind_eq_some_iff.mp hls
    obtain ⟨es1, hes1, hes2⟩ := bind_eq_ok.mp hes
    have hle := repeatLane_cursor_le hls2
    exact ih (hlane h hls1 (by omega) hes1) hls2 hes2

/-- **One op.** -/
theorem lowerOp_sim {cfg : EmitConfig} {op : TensorWasmOp} (hop : op.isF32 = true) (h : InStep fo inputs m0 es ls)
    (hls : laneRun (scalStep fo.interp (inputWord inputs)) op.laneOps ls = some ls')
    (hc : 4 * ls'.cursor ≤ inputs.length) (hes : lowerOp cfg op es = .ok es') : InStep fo inputs m0 es' ls' := by
  cases op with
  | vecAdd elem lanes =>
    obtain rfl : elem = .f32 := by simpa [isF32] using hop
    exact lowerLanes_sim (fun h hls _ hes => inStep_lane2 (o := .add) rfl h hls hes)
      (h.write fun _ => rfl) hls hc hes
  | vecMul elem lanes =>
    obtain rfl : elem = .f32 := by simpa [isF32] using hop
    exact lowerLanes_sim (fun h hls _ hes => inStep_lane2 (o := .mul) rfl h hls hes)
      (h.write fun _ => rfl) hls hc hes
  | vecFma elem lanes =>
    obtain rfl : elem = .f32 := by simpa [isF32] using hop
    exact lowerLanes_sim (fun h hls _ hes => inStep_lane3 h hls hes)
      (h.write fun _ => rfl) hls hc hes
  | loadUnified elem lanes =>
    obtain rfl : elem = .f32 := by simpa [isF32] using hop
    exact lowerLanes_sim inStep_laneLoad (h.write fun _ => rfl) hls hc hes
  | storeUnified elem lanes =>
    obtain rfl : elem = .f32 := by simpa [isF32] using hop
    exact lowerLanes_sim (fun h hls _ hes => inStep_laneStore h hls hes)
      (h.write fun _ => rfl) hls hc hes
  | barrier =>
    cases hls
    cases hes
    exact h.write fun _ => rfl
  | matMul m n k => exact absurd hop (by simp [isF32])

/-- **The whole op list**, by induction. -/
theorem lowerOps_sim {cfg : EmitConfig} {ops : List TensorWasmOp} (hops : ∀ op ∈ ops, op.isF32 = true)
    (h : InStep fo inputs m0 es ls)
    (hls : laneRun (scalStep fo.interp (inputWord inputs)) (laneProgram ops) ls = some ls')
    (hc : 4 * ls'.cursor ≤ inputs.length) (hes : lowerOps cfg ops es = .ok es') : InStep fo inputs m0 es' ls' := by
  induction ops generalizing es ls with
  | nil =>
    cases hls
    cases hes
    exact h
  | cons op ops ih =>
    rw [laneProgram, flatMap_cons, laneRun_append] at hls
    obtain ⟨ls1, hls1, hls2⟩ := Option.bind_eq_some_iff.mp hls
    obtain ⟨es1, hes1, hes2⟩ := bind_eq_ok.mp hes
    have hle := laneRun_cursor_le (fun _ _ _ => repeatLane_cursor_le) hls2
    have h1 := lowerOp_sim (hops op (by simp)) h hls1 (by omega) hes1
    exact ih (fun o ho => hops o (by simp [ho])) h1 hls2 hes2

end Simulation

/-! ## Refinement -/

/-- The kernel emitted for `bp` writes exactly the bytes of the reference, on every input on which
the reference succeeds, whatever the `f32` operations and the registers' initial contents. -/
def EmitRefinesReference (bp : TensorWasmKernelBlueprint) : Prop :=
  ∀ k, emitModule bp EmitConfig.default = .ok k →
    ∀ (fo : F32Ops) (inputs out : Bytes), referenceEval fo bp inputs = .ok out →
      ∀ f r : Nat → BitVec 32, ∃ m,
        execBody fo inputs k.lowered.body (.fresh f r) = some m ∧ ∀ i, m.out i = out[i]?

/-- The static check on a blueprint: no store, on a run that does not underflow, writes two or
more lanes or a value that an op of two or more lanes fed into. -/
def laneFaithful (bp : TensorWasmKernelBlueprint) : Bool := flow (laneProgram bp.ops) != some false

variable {bp : TensorWasmKernelBlueprint}

/-- The reference accepts exactly the vector-wise runs inside the input, and returns their
output. -/
theorem referenceEval_eq_ok {fo : F32Ops} (hf32 : ∀ op ∈ bp.ops, op.isF32 = true) {inputs out : Bytes} :
    referenceEval fo bp inputs = .ok out ↔
      ∃ v, laneRun (vecStep fo.interp (inputWord inputs)) (laneProgram bp.ops) .init = some v ∧
        4 * v.cursor ≤ inputs.length ∧ out = v.out.flatMap wordBytes := by
  have hinit : RefState.init = .ofLane .init := rfl
  simp only [referenceEval, bind_eq_ok, hinit,
    refOps_eq_ok fo hf32 (v := .init) (show 4 * 0 ≤ inputs.length by omega)]
  constructor
  · rintro ⟨_, ⟨v, hv, hc, rfl⟩, h⟩
    exact ⟨v, hv, hc, (Except.ok.inj h).symm⟩
  · rintro ⟨v, hv, hc, rfl⟩
    exact ⟨_, ⟨v, hv, hc, rfl⟩, rfl⟩

/-- The emitted body writes the output of the scalar-wise run. -/
theorem exists_execBody (hf32 : ∀ op ∈ bp.ops, op.isF32 = true) {cfg : EmitConfig}
    {k : PtxModule} (hk : emitModule bp cfg = .ok k) {fo : F32Ops} {inputs : Bytes} {s : LaneState (BitVec 32)}
    (hs : laneRun (scalStep fo.interp (inputWord inputs)) (laneProgram bp.ops) .init = some s)
    (hc : 4 * s.cursor ≤ inputs.length) (f r : Nat → BitVec 32) :
    ∃ m, execBody fo inputs k.lowered.body (.fresh f r) = some m ∧ ∀ i, m.out i = (s.out.flatMap wordBytes)[i]? := by
  obtain ⟨es, hes, hlow⟩ := bind_eq_ok.mp (lowered_of_emitModule hk)
  obtain ⟨m, hm⟩ := lowerOps_sim hf32 (inStep_init f r) hs hc hes
  have hbody : es.body = k.lowered.body := congrArg LoweredBody.body (Except.ok.inj hlow)
  exact ⟨m, hbody ▸ hm.run, hm.out⟩

/-- The emission budget bounds the lanes of an accepted blueprint. -/
theorem checkBudget_ok {ops : List TensorWasmOp} {budget : Nat} (hb : budget ≤ maxEmittedOps)
    (h : checkBudget ops budget = .ok ()) : budget + laneWork (laneProgram ops) ≤ maxEmittedOps := by
  induction ops generalizing budget with
  | nil => exact hb
  | cons op ops ih =>
    have hop : (op.laneOps.map LaneOp.lanes).sum = op.budgetLanes := by cases op <;> rfl
    have hwork : laneWork (laneProgram (op :: ops)) = op.budgetLanes + laneWork (laneProgram ops) := by
      simp [laneWork, laneProgram, hop]
    simp only [checkBudget] at h
    split at h
    · cases h
    · split at h
      · cases h
      · rename_i hlanes hbudget
        have hih := ih (Nat.le_of_not_lt hbudget) h
        have hsat : saturatingAddU64 budget op.budgetLanes = budget + op.budgetLanes := by
          simp only [saturatingAddU64, maxEmittedOps, maxLanes] at *
          omega
        rw [hsat] at hih
        omega

theorem card_bitVec32 : Fintype.card (BitVec 32) = 2 ^ 32 := by
  let e : BitVec 32 ≃ Fin (2 ^ 32) := ⟨BitVec.toFin, BitVec.ofFin, fun _ => rfl, fun _ => rfl⟩
  exact (Fintype.card_congr e).trans (Fintype.card_fin _)

/-- An input buffer that holds given words. -/
theorem inputWord_range_map {ρ : Nat → BitVec 32} {n i : Nat} (hi : i < n) :
    inputWord (((List.range n).map ρ).flatMap wordBytes) i = ρ i := by
  have hget : ((List.range n).map ρ)[i]? = some (ρ i) := by simp [hi]
  simp [inputWord, readWord_flatMap hget]

theorem flatMap_wordBytes_inj {ws us : List (BitVec 32)}
    (h : ws.flatMap wordBytes = us.flatMap wordBytes) : ws = us := by
  have hlen : ws.length = us.length := by
    have := congrArg List.length h
    simp only [length_flatMap_wordBytes] at this
    omega
  refine ext_getElem hlen fun i hi hi' => ?_
  have h1 := readWord_flatMap (List.getElem?_eq_getElem hi)
  have h2 := readWord_flatMap (List.getElem?_eq_getElem hi')
  rw [h] at h1
  exact Option.mem_unique h1 h2

/-- **The emitted kernel refines the reference exactly when the lane check passes.** -/
theorem emit_refines_reference_iff {bp : TensorWasmKernelBlueprint}
    (hf32 : ∀ op ∈ bp.ops, op.isF32 = true) (hemit : ∃ p, emit bp = .ok p) :
    EmitRefinesReference bp ↔ laneFaithful bp = true := by
  obtain ⟨p, hp⟩ := hemit
  obtain ⟨k, hk, -⟩ := bind_eq_ok.mp hp
  have hwork : laneWork (laneProgram bp.ops) ≤ 2 ^ 20 := by
    have hk' := hk
    unfold emitModule at hk'
    split at hk'
    · cases hk'
    · obtain ⟨_, hb, -⟩ := bind_eq_ok.mp hk'
      have := checkBudget_ok (Nat.zero_le _) hb
      simpa [maxEmittedOps] using this
  have hcard : 2 * laneWork (laneProgram bp.ops) ≤ Fintype.card (BitVec 32) := by
    rw [card_bitVec32]
    omega
  have hiff := agrees_iff hcard
  rw [laneFaithful, bne_iff_ne, ← hiff]
  constructor
  · -- feed the words of an arbitrary vector-wise run to the kernel
    intro href A ρ v hv
    have hlen : (((List.range v.cursor).map ρ).flatMap wordBytes).length = 4 * v.cursor := by
      rw [length_flatMap_wordBytes, length_map, length_range]
    generalize hinputs : ((List.range v.cursor).map ρ).flatMap wordBytes = inputs at hlen
    have hρ : ∀ i < v.cursor, ρ i = inputWord inputs i := fun i hi => by
      rw [← hinputs, inputWord_range_map hi]
    have hv' := laneRun_congr (fun _ _ _ => vecStep_cursor_le) (fun _ _ _ => vecStep_congr) hv hρ
    obtain ⟨s, hs, hsc⟩ := laneRun_scal_of_vec hv'
    rw [← F32Ops.interp_ofInterp A] at hv' hs
    obtain ⟨m, hm, hmo⟩ := exists_execBody hf32 hk hs (by omega) (fun _ => 0) (fun _ => 0)
    obtain ⟨m', hm', hmo'⟩ := href k hk (.ofInterp A) inputs _
      ((referenceEval_eq_ok hf32).mpr ⟨v, hv', by omega, rfl⟩) (fun _ => 0) (fun _ => 0)
    obtain rfl := Option.mem_unique hm hm'
    have hout : s.out.flatMap wordBytes = v.out.flatMap wordBytes :=
      ext_getElem? fun i => (hmo i).symm.trans (hmo' i)
    rw [F32Ops.interp_ofInterp] at hs
    refine ⟨s, ?_, flatMap_wordBytes_inj hout⟩
    exact laneRun_congr (fun _ _ _ => repeatLane_cursor_le) (fun _ _ _ => scalStep_congr) hs
      fun i hi => (hρ i (by omega)).symm
  · intro hag k' hk' fo inputs out hout f r
    obtain ⟨v, hv, hc, rfl⟩ := (referenceEval_eq_ok hf32).mp hout
    obtain ⟨s, hs, hso⟩ := hag _ _ v hv
    obtain ⟨s', hs', hsc⟩ := laneRun_scal_of_vec hv
    obtain rfl := Option.mem_unique hs hs'
    rw [← hso]
    exact exists_execBody hf32 hk' hs (by omega) f r

/-- One `f32` load and store of the given lane count. -/
def copyLanes (lanes : UInt32) : TensorWasmKernelBlueprint :=
  { TensorWasmKernelBlueprint.new "copy" with
    ops := [.loadUnified .f32 lanes, .storeUnified .f32 lanes] }

theorem copyOneLane_refines : (∃ p, emit (copyLanes 1) = .ok p) ∧ EmitRefinesReference (copyLanes 1) :=
  ⟨⟨_, rfl⟩, (emit_refines_reference_iff (by decide) ⟨_, rfl⟩).mpr (by decide)⟩

/-- Some `f32` operations; the example below performs none of them. -/
def wrappingOps : F32Ops := ⟨(· + ·), (· * ·), fun a b c => a * b + c⟩

/-- **Two lanes come out swapped**: on `1, 2` the reference returns `1, 2` and the emitted kernel,
which pops the top of its stack first, writes `2, 1`. -/
theorem copyTwoLanes_swaps :
    (∀ op ∈ (copyLanes 2).ops, op.isF32 = true) ∧ (∃ p, emit (copyLanes 2) = .ok p) ∧
    referenceEval wrappingOps (copyLanes 2) [1, 0, 0, 0, 2, 0, 0, 0] = .ok [1, 0, 0, 0, 2, 0, 0, 0] ∧
    (∃ k m, emitModule (copyLanes 2) .default = .ok k ∧
      execBody wrappingOps [1, 0, 0, 0, 2, 0, 0, 0] k.lowered.body (.fresh (fun _ => 0) fun _ => 0) = some m ∧
      (List.range 8).map m.out = [2, 0, 0, 0, 1, 0, 0, 0].map some) ∧
    ¬ EmitRefinesReference (copyLanes 2) := by
  refine ⟨by decide, ⟨_, rfl⟩, rfl, ⟨_, _, rfl, rfl, by decide⟩, fun href => ?_⟩
  obtain ⟨m, hm, hout⟩ := href _ rfl wrappingOps [1, 0, 0, 0, 2, 0, 0, 0] _ rfl (fun _ => 0)
    fun _ => 0
  cases hm
  exact absurd (hout 0) (by decide)

end TensorWasm.Jit
