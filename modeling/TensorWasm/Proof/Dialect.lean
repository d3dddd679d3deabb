import TensorWasm.Pliron.Ptx

/-!
# The conversion to the LLVM dialect

`Faithful` says that a conversion keeps the program: operations have images in the corresponding block
and in order, operands are images of operands, and an access addresses its base plus its offset. A
`Scope` says how much of that is asked for. The conversion is faithful in the scope it is designed for:
the arguments a conditional branch passes are left out, and binary operations and accesses with an
offset are not spoken of.
-/

namespace TensorWasm.Pliron

open Lib List
open Function (update update_of_ne update_self)
open FuncOp (insertAtBack new)

/-! ## What is to be kept -/

/-- The constant offset of an access. -/
def TwasmOp.offset (op : TwasmOp) : Int :=
  match op.attributes.lookup twasmOffsetAttr with
  | some (.number n) => n
  | _ => 0

/-- The pointer is computed from the base by adding a constant. -/
inductive Addresses (ops : List LlvmOp) : Value → Value → Int → Prop
  | intToPtr {c : LlvmOp} {base : Value} : c ∈ ops → c.opcode = .intToPtr → c.operands = [base] →
      Addresses ops (.result c.ptr 0 .pointer) base 0
  | getElementPtr {c : LlvmOp} {ptr base : Value} {n bytes : Int} : Addresses ops ptr base n →
      c ∈ ops → c.opcode = .getElementPtr bytes → c.operands = [ptr] →
      Addresses ops (.result c.ptr 0 .pointer) base (n + bytes)

def TwasmOpcode.toLlvm : TwasmOpcode → Option LlvmOpcode
  | .addi => some .add
  | .subi => some .sub
  | .muli => some .mul
  | .addf => some .fadd
  | .subf => some .fsub
  | .mulf => some .fmul
  | .load => some .load
  | .store => some .store
  | .br => some .br
  | .condBr => some .condBr
  | .return => some .return
  | _ => none

/-- What is asked of a conversion: which operations have an image, which operands are passed on, and
which accesses have their offset added. -/
structure Scope where
  converted : TwasmOp → Bool
  passed : TwasmOp → List Value
  addressed : TwasmOp → Bool

def Scope.full : Scope := ⟨fun _ => true, fun op => op.operands, fun _ => true⟩

def TwasmOpcode.isBinary : TwasmOpcode → Bool
  | .addi | .subi | .muli | .addf | .subf | .mulf => true
  | _ => false

/-- The scope of the scaffolding: a conditional branch passes its condition only. Binary operations and
offsets other than zero are left open. -/
def Scope.scaffolding : Scope where
  converted op := !op.opcode.isBinary
  passed op := if op.opcode = .condBr then op.operands.take 1 else op.operands
  addressed op := decide (op.offset = 0)

/-- The operands, where the base of an access becomes a pointer. -/
def OperandsMapped (S : Scope) (image : Value → Option Value) (ops : List LlvmOp) (op : TwasmOp)
    (op' : LlvmOp) : Prop :=
  match op.opcode with
  | .load => ∃ base base' ptr n, op.operands = [base] ∧ op'.operands = [ptr] ∧
      image base = some base' ∧ Addresses ops ptr base' n ∧ (S.addressed op = true → n = op.offset)
  | .store => ∃ value value' base base' ptr n, op.operands = [value, base] ∧
      op'.operands = [value', ptr] ∧ image value = some value' ∧ image base = some base' ∧
      Addresses ops ptr base' n ∧ (S.addressed op = true → n = op.offset)
  | _ => List.Forall₂ (fun v v' => image v = some v') (S.passed op) op'.operands

/-- The second operation is the image of the first: its results are the images of the results. -/
structure Translates (S : Scope) (image : Value → Option Value) (ops : List LlvmOp) (op : TwasmOp)
    (op' : LlvmOp) : Prop where
  opcode : op.opcode.toLlvm = some op'.opcode
  successors : op'.successors = op.successors
  results : List.Forall₂ (fun v v' => image v = some v') op.results op'.results
  operands : OperandsMapped S image ops op op'

/-- The operations of the block at place `k`. -/
def FuncOp.opsAt {κ : Type} (F : FuncOp κ) (k : BlockPtr) : List (Operation κ) :=
  (F.blocks[k]?.map (·.ops)).getD []

/-- Corresponding blocks have the same arguments, and the operations of a block have images in the
corresponding block, in order. -/
def Faithful (S : Scope) (P : TwasmFunc) (Q : LlvmFunc) : Prop :=
  Q.blocks.map (·.argTypes) = P.blocks.map (·.argTypes) ∧
  ∃ image : Value → Option Value,
    (∀ (k : Nat) (blk : BasicBlock TwasmOpcode), P.blocks[k]? = some blk →
      ∀ v ∈ blk.arguments k, image v = some v) ∧
    ∀ k, ∃ ops', List.Sublist ops' (Q.opsAt k) ∧
      List.Forall₂ (Translates S image (Q.opsAt k)) ((P.opsAt k).filter S.converted) ops'

/-! ## The input -/

/-- What the emitted operations look like. -/
def TwasmOp.Shaped (op : TwasmOp) : Prop :=
  match op.opcode with
  | .load => op.operands.length = 1 ∧ op.resultTypes.length = 1 ∧ op.successors = []
  | .store => op.operands.length = 2 ∧ op.resultTypes = [] ∧ op.successors = []
  | .br => op.resultTypes = [] ∧ op.successors.length = 1
  | .condBr => op.operands ≠ [] ∧ op.resultTypes = [] ∧ op.successors.length = 2
  | .return => op.resultTypes = [] ∧ op.successors = []
  | _ => True

/-- A function the first stage has produced. -/
structure Produced (P : TwasmFunc) : Prop where
  distinct : P.Distinct
  shaped : ∀ op ∈ P.ops, TwasmOp.Shaped op
  entry : ∃ blk, P.blocks[0]? = some blk ∧ blk.argTypes = P.params

variable {op : TwasmOp}

theorem Produced.insert {F : TwasmFunc} (h : Produced F) (hptr : op.ptr = F.next)
    (hshaped : op.Shaped) (k : BlockPtr) : Produced ({ F with next := F.next + 1 }.insertAtBack k op) where
  distinct := h.distinct.insert hptr k
  shaped o ho := by
    rcases FuncOp.ops_insertAtBack { F with next := F.next + 1 } k op with heq | hperm
    · rw [heq] at ho
      exact h.shaped o ho
    · rcases mem_cons.mp (hperm.mem_iff.mp ho) with rfl | hold
      · exact hshaped
      · exact h.shaped o hold
  entry := by
    obtain ⟨blk, hblk, htypes⟩ := h.entry
    simp only [insertAtBack, List.getElem?_modify, hblk]
    by_cases hk : k = 0
    · exact ⟨_, rfl, by simpa [hk] using htypes⟩
    · exact ⟨_, rfl, by simpa [hk] using htypes⟩

theorem Produced.newBlock {F : TwasmFunc} (h : Produced F) (argTypes : List PlironType) :
    Produced (F.newBlock argTypes) where
  distinct := h.distinct.newBlock argTypes
  shaped o ho := by
    have hops : (F.newBlock argTypes).ops = F.ops := by simp [FuncOp.ops, FuncOp.newBlock]
    rw [hops] at ho
    exact h.shaped o ho
  entry := by
    obtain ⟨blk, hblk, htypes⟩ := h.entry
    exact ⟨blk, List.getElem?_append_left (List.getElem?_eq_some_iff.mp hblk).1 |>.trans hblk, htypes⟩

theorem Produced.new (name : String) (params returns : List PlironType) : Produced (new name params returns) where
  distinct := FuncOp.distinct_new name params returns
  shaped _ hmem := nomatch hmem
  entry := ⟨_, rfl, rfl⟩

namespace ConversionState

@[simp] theorem mapBlock_func (s : ConversionState) (id : Clif.LoweredBlockId) (b : BlockPtr) :
    (s.mapBlock id b).func = s.func := rfl

@[simp] theorem mapParams_func (s : ConversionState) (params : List (Clif.LoweredValueId × Clif.LoweredType))
    (arguments : List Value) : (s.mapParams params arguments).func = s.func := by
  unfold mapParams
  generalize params.zip arguments = pairs
  induction pairs generalizing s with
  | nil => rfl
  | cons p pairs ih => exact ih _

variable {attributes : List (String × StringAttr)}

theorem emit_produced {s : ConversionState} (h : Produced s.func) (k : BlockPtr) {opcode : TwasmOpcode}
    {resultTypes : List PlironType} {operands : List Value} {successors : List BlockPtr}
    (hshaped : TwasmOp.Shaped ⟨s.func.next, opcode, resultTypes, operands, successors, attributes⟩) :
    Produced (s.emit k opcode resultTypes operands successors attributes).2.func :=
  h.insert rfl hshaped k

theorem emitResult_produced {s : ConversionState} (h : Produced s.func) (k : BlockPtr) {opcode : TwasmOpcode}
    {ty : PlironType} {operands : List Value} (result : Clif.LoweredValueId)
    (hshaped : TwasmOp.Shaped ⟨s.func.next, opcode, [ty], operands, [], attributes⟩) :
    Produced (s.emitResult k opcode ty operands attributes result).func :=
  h.insert rfl hshaped k

end ConversionState

variable {k : BlockPtr} {opcode : TwasmOpcode}

/-- Two operands and a cast have no shape of their own. -/
theorem emitBinary_produced {s s' : ConversionState} {ty : Clif.LoweredType}
    {lhs rhs result : Clif.LoweredValueId} (h : Produced s.func) (hopcode : opcode.isBinary = true)
    (hok : emitBinary opcode s k ty lhs rhs result = .ok s') : Produced s'.func := by
  obtain ⟨l, -, hok⟩ := bind_eq_ok.mp hok
  obtain ⟨r, -, hok⟩ := bind_eq_ok.mp hok
  obtain ⟨t, -, hok⟩ := bind_eq_ok.mp hok
  cases hok
  refine ConversionState.emitResult_produced h k result ?_
  cases opcode <;> trivial

theorem emitUnaryCast_produced {s s' : ConversionState} {ty : Clif.LoweredType} {src result : Clif.LoweredValueId}
    (h : Produced s.func) (hopcode : ∀ op : TwasmOp, op.opcode = opcode → op.Shaped)
    (hok : emitUnaryCast opcode s k ty src result = .ok s') : Produced s'.func := by
  obtain ⟨v, -, hok⟩ := bind_eq_ok.mp hok
  obtain ⟨t, -, hok⟩ := bind_eq_ok.mp hok
  cases hok
  exact ConversionState.emitResult_produced h k result (hopcode _ rfl)

theorem shaped_of_plain (h : opcode.toLlvm = none) (op : TwasmOp) (hop : op.opcode = opcode) : op.Shaped := by
  subst hop
  unfold TwasmOp.Shaped
  cases hc : op.opcode <;> first | trivial | (rw [hc] at h; cases h)

variable {identifier : String → Except String Unit}

theorem emitOp_produced {s s' : ConversionState} {op : Clif.LoweredOp} (h : Produced s.func)
    (hok : emitOp identifier s k op = .ok s') : Produced s'.func := by
  cases op with
  | arith kind ty lhs rhs result =>
    cases kind with
    | addI | subI | mulI => exact emitBinary_produced h rfl hok
    | divS | divU | remS | remU => cases hok
  | float kind ty lhs rhs result =>
    cases kind with
    | addF | subF | mulF => exact emitBinary_produced h rfl hok
    | divF => cases hok
  | load ty base offset result =>
    obtain ⟨b, -, hok⟩ := bind_eq_ok.mp hok
    obtain ⟨t, -, hok⟩ := bind_eq_ok.mp hok
    cases hok
    exact ConversionState.emitResult_produced h k result ⟨rfl, rfl, rfl⟩
  | store ty value base offset =>
    obtain ⟨v, -, hok⟩ := bind_eq_ok.mp hok
    obtain ⟨b, -, hok⟩ := bind_eq_ok.mp hok
    cases hok
    exact ConversionState.emit_produced h k ⟨rfl, rfl, rfl⟩
  | br target args =>
    obtain ⟨b, -, hok⟩ := bind_eq_ok.mp hok
    obtain ⟨vs, -, hok⟩ := bind_eq_ok.mp hok
    cases hok
    exact ConversionState.emit_produced h k ⟨rfl, rfl⟩
  | condBr cond thenTarget thenArgs elseTarget elseArgs =>
    obtain ⟨c, -, hok⟩ := bind_eq_ok.mp hok
    obtain ⟨t, -, hok⟩ := bind_eq_ok.mp hok
    obtain ⟨e, -, hok⟩ := bind_eq_ok.mp hok
    obtain ⟨vs, -, hok⟩ := bind_eq_ok.mp hok
    cases hok
    exact ConversionState.emit_produced h k ⟨cons_ne_nil _ _, rfl, rfl⟩
  | «return» values =>
    obtain ⟨vs, -, hok⟩ := bind_eq_ok.mp hok
    cases hok
    exact ConversionState.emit_produced h k ⟨rfl, rfl⟩
  | stackAlloc ty bytes result =>
    obtain ⟨t, -, hok⟩ := bind_eq_ok.mp hok
    cases hok
    exact ConversionState.emitResult_produced h k result trivial
  | select ty cond thenV elseV result =>
    obtain ⟨c, -, hok⟩ := bind_eq_ok.mp hok
    obtain ⟨t, -, hok⟩ := bind_eq_ok.mp hok
    obtain ⟨e, -, hok⟩ := bind_eq_ok.mp hok
    obtain ⟨ty', -, hok⟩ := bind_eq_ok.mp hok
    cases hok
    exact ConversionState.emitResult_produced h k result trivial
  | conv kind fromTy toTy src result =>
    cases kind with
    | bitcast | truncI | extendU | extendS =>
      exact emitUnaryCast_produced h (shaped_of_plain rfl) hok
  | fma _ _ _ _ _ | fNeg _ _ _ | fAbs _ _ _ | switch _ _ _ | vMin _ _ _ _ _ | vMax _ _ _ _ _
  | vSplat _ _ _ | vSelect _ _ _ _ _ | vAllTrue _ _ | vAnyTrue _ _ => cases hok

theorem makeBlock_produced {entry : Clif.LoweredBlockId} (b : Clif.LoweredBlock) (s s' : ConversionState)
    (h : Produced s.func) (hok : makeBlock entry s b = .ok s') : Produced s'.func := by
  unfold makeBlock at hok
  split at hok
  · cases hok
    exact h
  · obtain ⟨tys, -, hok⟩ := bind_eq_ok.mp hok
    cases hok
    simp only [ConversionState.mapBlock_func, ConversionState.mapParams_func]
    exact h.newBlock tys

theorem emitBlock_produced (b : Clif.LoweredBlock) (s s' : ConversionState) (h : Produced s.func)
    (hok : emitBlock identifier s b = .ok s') : Produced s'.func := by
  obtain ⟨k, -, hok⟩ := bind_eq_ok.mp hok
  exact foldlM_keeps (P := fun s : ConversionState => Produced s.func)
    (fun _ _ _ hs hstep => emitOp_produced hs hstep) h hok

variable {P : TwasmFunc}

/-- The first stage produces such functions. -/
theorem loweredFunctionToPliron_produced {L : Clif.LoweredFunction}
    (h : loweredFunctionToPliron identifier L = .ok P) : Produced P := by
  unfold loweredFunctionToPliron at h
  obtain ⟨params, -, h⟩ := bind_eq_ok.mp h
  obtain ⟨returns, -, h⟩ := bind_eq_ok.mp h
  split at h
  · cases h
  · split at h
    · cases h
    · split at h
      · cases h
      · obtain ⟨s, hblocks, h⟩ := bind_eq_ok.mp h
        obtain ⟨s', hops, h⟩ := bind_eq_ok.mp h
        cases h
        have hstart := foldlM_keeps (P := fun s : ConversionState => Produced s.func)
          (fun b s s' => makeBlock_produced b s s')
          (by simpa using Produced.new L.name params returns) hblocks
        exact foldlM_keeps (P := fun s : ConversionState => Produced s.func)
          (fun b s s' => emitBlock_produced b s s') hstart hops

/-! ## Values and operations of the output -/

variable {s : RewriteState} {v : Value}

theorem insertValues_of_not_mem {old new : List Value} (h : v ∉ old) :
    (s.insertValues old new).values v = s.values v := by
  unfold RewriteState.insertValues
  generalize s.values = m
  induction old generalizing new m with
  | nil => rfl
  | cons w old ih =>
    cases new with
    | nil => rfl
    | cons w' new =>
      rw [mem_cons, not_or] at h
      exact (ih h.2 _).trans (update_of_ne h.1 _ _)

theorem insertValues_same {l : List Value} (h : v ∈ l) : (s.insertValues l l).values v = some v := by
  unfold RewriteState.insertValues
  generalize s.values = m
  induction l generalizing m with
  | nil => cases h
  | cons w l ih =>
    by_cases hv : v ∈ l
    · exact ih hv _
    · obtain rfl : v = w := (mem_cons.mp h).resolve_right hv
      -- No later pair is about this value.
      have hlater : (({ s with values := update m v (some v) } :
          RewriteState).insertValues l l).values v = update m v (some v) v :=
        insertValues_of_not_mem hv
      exact hlater.trans (update_self v _ _)

theorem opsAt_insertAtBack {F : LlvmFunc} (hk : k < F.blocks.length) (op : LlvmOp) (j : BlockPtr) :
    (F.insertAtBack k op).opsAt j = if j = k then F.opsAt k ++ [op] else F.opsAt j := by
  unfold FuncOp.opsAt insertAtBack
  rw [List.getElem?_modify]
  by_cases hj : j = k
  · subst hj
    rw [List.getElem?_eq_getElem hk]
    simp
  · have hkj : k ≠ j := fun heq => hj heq.symm
    simp [hj, hkj]

theorem argTypes_insertAtBack (F : LlvmFunc) (k : BlockPtr) (op : LlvmOp) :
    (F.insertAtBack k op).blocks.map (·.argTypes) = F.blocks.map (·.argTypes) := by
  apply ext_getElem?
  intro j
  simp only [insertAtBack, List.getElem?_map, List.getElem?_modify]
  cases F.blocks[j]? with
  | none => rfl
  | some blk => by_cases hj : k = j <;> simp [hj]

/-- Between the two states, operations were added at the end of one block. -/
structure Emits (s s' : RewriteState) (k : BlockPtr) (added : List LlvmOp) : Prop where
  blocks : s'.blocks = s.blocks
  shape : s'.func.blocks.map (·.argTypes) = s.func.blocks.map (·.argTypes)
  here : s'.func.opsAt k = s.func.opsAt k ++ added
  elsewhere : ∀ j, j ≠ k → s'.func.opsAt j = s.func.opsAt j

variable {added : List LlvmOp} {s' : RewriteState}

theorem Emits.length (h : Emits s s' k added) : s'.func.blocks.length = s.func.blocks.length := by
  simpa using congrArg List.length h.shape

theorem Emits.sublist (h : Emits s s' k added) (j : BlockPtr) : (s.func.opsAt j).Sublist (s'.func.opsAt j) := by
  by_cases hj : j = k
  · rw [hj, h.here]
    exact sublist_append_left _ _
  · rw [h.elsewhere j hj]

theorem Emits.trans {s'' : RewriteState} {added' : List LlvmOp} (h : Emits s s' k added)
    (h' : Emits s' s'' k added') : Emits s s'' k (added ++ added') where
  blocks := h'.blocks.trans h.blocks
  shape := h'.shape.trans h.shape
  here := by rw [h'.here, h.here, append_assoc]
  elsewhere j hj := (h'.elsewhere j hj).trans (h.elsewhere j hj)

theorem emits_create (s : RewriteState) (k : BlockPtr) (opcode : LlvmOpcode)
    (resultTypes : List PlironType) (operands : List Value) (successors : List BlockPtr) :
    Emits s (s.create opcode resultTypes operands successors).2 k [] where
  blocks := rfl
  shape := rfl
  here := (append_nil _).symm
  elsewhere _ _ := rfl

theorem emits_append (hk : k < s.func.blocks.length) (opcode : LlvmOpcode)
    (resultTypes : List PlironType) (operands : List Value) (successors : List BlockPtr) :
    Emits s (s.append k opcode resultTypes operands successors).2 k
      [⟨s.func.next, opcode, resultTypes, operands, successors, []⟩] where
  blocks := rfl
  shape := argTypes_insertAtBack { s.func with next := s.func.next + 1 } k _
  here := (opsAt_insertAtBack (F := { s.func with next := s.func.next + 1 }) hk _ k).trans (if_pos rfl)
  elsewhere j hj :=
    (opsAt_insertAtBack (F := { s.func with next := s.func.next + 1 }) hk _ j).trans (if_neg hj)

/-! ## One operation -/

variable {ops ops' : List LlvmOp}

theorem Addresses.mono (hsub : ∀ op ∈ ops, op ∈ ops') {ptr base : Value} {n : Int}
    (h : Addresses ops ptr base n) : Addresses ops' ptr base n := by
  induction h with
  | intToPtr hmem hopcode hoperands => exact .intToPtr (hsub _ hmem) hopcode hoperands
  | getElementPtr _ hmem hopcode hoperands ih =>
    exact .getElementPtr ih (hsub _ hmem) hopcode hoperands

variable {op' : LlvmOp}

theorem OperandsMapped.mono {S : Scope} {image image' : Value → Option Value}
    (himage : ∀ v v', image v = some v' → image' v = some v') (hsub : ∀ op ∈ ops, op ∈ ops')
    (h : OperandsMapped S image ops op op') : OperandsMapped S image' ops' op op' := by
  unfold OperandsMapped at h ⊢
  split at h
  · obtain ⟨base, base', ptr, n, hop, hop', hbase, haddr, hoff⟩ := h
    exact ⟨base, base', ptr, n, hop, hop', himage _ _ hbase, haddr.mono hsub, hoff⟩
  · obtain ⟨value, value', base, base', ptr, n, hop, hop', hvalue, hbase, haddr, hoff⟩ := h
    exact ⟨value, value', base, base', ptr, n, hop, hop', himage _ _ hvalue, himage _ _ hbase, haddr.mono hsub, hoff⟩
  · exact h.imp fun v v' => himage v v'

theorem Translates.mono {S : Scope} {image image' : Value → Option Value}
    (himage : ∀ v v', image v = some v' → image' v = some v') (hsub : ∀ op ∈ ops, op ∈ ops')
    (h : Translates S image ops op op') : Translates S image' ops' op op' where
  opcode := h.opcode
  successors := h.successors
  results := h.results.imp fun v v' => himage v v'
  operands := h.operands.mono himage hsub

/-- What the new operation is, in terms of the mapped operands and successors. -/
structure Rewrites (op : TwasmOp) (operands : List Value) (successors : List BlockPtr)
    (added : List LlvmOp) (op' : LlvmOp) : Prop where
  mem : op' ∈ added
  opcode : op.opcode.toLlvm = some op'.opcode
  successors : op'.successors = successors
  arity : op'.resultTypes.length = op.resultTypes.length
  operands : ∀ image : Value → Option Value,
    List.Forall₂ (fun v v' => image v = some v') op.operands operands →
    OperandsMapped .scaffolding image added op op'

variable {α : Type} {l : List α}

theorem required_ok {idx : Nat} {text : String} {a : α} (h : required l idx text = .ok a) : l[idx]? = some a := by
  unfold required at h
  split at h
  · next hl => rw [hl, Except.ok.inj h]
  · cases h

theorem emitBinop_spec {kind : String} {opcode : LlvmOpcode}
    {operands : List Value} (h : emitBinop kind opcode s operands = .ok (op', s')) (k : BlockPtr) :
    s'.values = s.values ∧ Emits s s' k [] := by
  obtain ⟨lhs, -, h⟩ := bind_eq_ok.mp h
  obtain ⟨rhs, -, h⟩ := bind_eq_ok.mp h
  cases h
  exact ⟨rfl, emits_create s k opcode [lhs.type] [lhs, rhs] []⟩

/-- A cast and the operation that uses it. -/
theorem emits_access (hk : k < s.func.blocks.length) (base : Value) (opcode : LlvmOpcode)
    (resultTypes : List PlironType) (operands : Value → List Value) :
    ∃ c : LlvmOp, Emits s ((castIntToPtr s k base).2.append k opcode resultTypes
        (operands (castIntToPtr s k base).1) []).2 k
        [c, ((castIntToPtr s k base).2.append k opcode resultTypes (operands (castIntToPtr s k base).1) []).1] ∧
      ∀ op', Addresses [c, op'] (castIntToPtr s k base).1 base 0 := by
  have hcast := emits_append hk .intToPtr [.pointer] [base] []
  have hlt : k < (castIntToPtr s k base).2.func.blocks.length := by
    have hlen : (castIntToPtr s k base).2.func.blocks.length = s.func.blocks.length := hcast.length
    rw [hlen]
    exact hk
  have huse := emits_append hlt opcode resultTypes (operands (castIntToPtr s k base).1) []
  exact ⟨_, hcast.trans huse, fun op' => .intToPtr mem_cons_self rfl rfl⟩

theorem length_eq_one {a : α} (hlen : l.length = 1) (h : l[0]? = some a) : l = [a] := by
  obtain ⟨b, rfl⟩ := length_eq_one_iff.mp hlen
  cases h
  rfl

theorem length_eq_two {a b : α} (hlen : l.length = 2) (ha : l[0]? = some a) (hb : l[1]? = some b) : l = [a, b] := by
  obtain ⟨x, y, rfl⟩ := List.length_eq_two.mp hlen
  cases ha
  cases hb
  rfl

theorem eq_nil_of_length {l' : List α} (hlen : l.length = l'.length) (h : l' = []) : [] = l :=
  (length_eq_zero_iff.mp (hlen.trans (congrArg List.length h))).symm

/-- A new operation is added for every operation that is not a binary one. -/
theorem rewriteMapped_spec {operands : List Value} {successors : List BlockPtr}
    (hk : k < s.func.blocks.length) (hshaped : op.Shaped) (hoperands : operands.length = op.operands.length)
    (hsuccessors : successors.length = op.successors.length)
    (h : rewriteMapped s k op operands successors = .ok (op', s')) :
    s'.values = s.values ∧ ∃ added, Emits s s' k added ∧
      (op.opcode.isBinary = false → Rewrites op operands successors added op') := by
  obtain ⟨ptr, opcode, resultTypes, inOperands, inSuccessors, attributes⟩ := op
  cases opcode with
  | addi | subi | muli | addf | subf | mulf =>
    obtain ⟨hvalues, hemits⟩ := emitBinop_spec h k
    exact ⟨hvalues, [], hemits, fun hbinary => nomatch hbinary⟩
  | load =>
    obtain ⟨hone, hres, hnone⟩ := hshaped
    obtain ⟨base, hbase, h⟩ := bind_eq_ok.mp h
    obtain ⟨resTy, -, h⟩ := bind_eq_ok.mp h
    have hlist := length_eq_one (hoperands.trans hone) (required_ok hbase)
    obtain ⟨c, hemits, haddr⟩ := emits_access hk base .load [resTy] fun ptr => [ptr]
    cases h
    refine ⟨rfl, _, hemits, fun _ => ⟨mem_cons_of_mem _ (mem_singleton_self _), rfl,
      eq_nil_of_length hsuccessors hnone, hres.symm, fun image himage => ?_⟩⟩
    · obtain ⟨v, rfl⟩ := length_eq_one_iff.mp hone
      subst hlist
      cases himage with
      | cons hv _ =>
        exact ⟨v, base, _, 0, rfl, rfl, hv, haddr _, fun hoff => (of_decide_eq_true hoff).symm⟩
  | store =>
    obtain ⟨htwo, hres, hnone⟩ := hshaped
    obtain ⟨value, hvalue, h⟩ := bind_eq_ok.mp h
    obtain ⟨base, hbase, h⟩ := bind_eq_ok.mp h
    have hlist := length_eq_two (hoperands.trans htwo) (required_ok hvalue) (required_ok hbase)
    obtain ⟨c, hemits, haddr⟩ := emits_access hk base .store [] fun ptr => [value, ptr]
    cases h
    refine ⟨rfl, _, hemits, fun _ => ⟨mem_cons_of_mem _ (mem_singleton_self _), rfl,
      eq_nil_of_length hsuccessors hnone, (congrArg List.length hres).symm, fun image himage => ?_⟩⟩
    · obtain ⟨v, b, rfl⟩ := List.length_eq_two.mp htwo
      subst hlist
      cases himage with
      | cons hv hrest =>
        cases hrest with
        | cons hb _ =>
          exact ⟨v, value, b, base, _, 0, rfl, rfl, hv, hb, haddr _, fun hoff => (of_decide_eq_true hoff).symm⟩
  | br =>
    obtain ⟨hres, hone⟩ := hshaped
    obtain ⟨dest, hdest, h⟩ := bind_eq_ok.mp h
    have hlist := length_eq_one (hsuccessors.trans hone) (required_ok hdest)
    cases h
    refine ⟨rfl, _, emits_append hk .br [] operands [dest], fun _ =>
      ⟨mem_singleton_self _, rfl, hlist.symm, (congrArg List.length hres).symm, fun image himage => himage⟩⟩
  | condBr =>
    obtain ⟨hne, hres, htwo⟩ := hshaped
    obtain ⟨cond, hcond, h⟩ := bind_eq_ok.mp h
    obtain ⟨thenDest, hthen, h⟩ := bind_eq_ok.mp h
    obtain ⟨elseDest, helse, h⟩ := bind_eq_ok.mp h
    have hlist := length_eq_two (hsuccessors.trans htwo) (required_ok hthen) (required_ok helse)
    cases h
    refine ⟨rfl, _, emits_append hk .condBr [] [cond] [thenDest, elseDest], fun _ =>
      ⟨mem_singleton_self _, rfl, hlist.symm, (congrArg List.length hres).symm, fun image himage => ?_⟩⟩
    -- Only the condition is passed on.
    have hfirst := required_ok hcond
    cases himage with
    | nil => exact absurd rfl hne
    | cons hv _ =>
      cases hfirst
      exact .cons hv .nil
  | «return» =>
    obtain ⟨hres, hnone⟩ := hshaped
    have hret : (if 1 < operands.length then Except.error _ else
        Except.ok (s.append k .return [] operands [])) = Except.ok (op', s') := h
    split at hret
    · cases hret
    · cases hret
      exact ⟨rfl, _, emits_append hk .return [] operands [], fun _ =>
        ⟨mem_singleton_self _, rfl, eq_nil_of_length hsuccessors hnone,
          (congrArg List.length hres).symm, fun image himage => himage⟩⟩
  | select | bitcast | trunci | extui | extsi | alloca => cases h

theorem mapValue_ok {v' : Value} (h : s.mapValue v = .ok v') : s.values v = some v' := by
  unfold RewriteState.mapValue at h
  split at h
  · next hv => rw [hv, Except.ok.inj h]
  · cases h

theorem mapBlock_ok {b b' : BlockPtr} (h : s.mapBlock b = .ok b') : s.blocks b = some b' := by
  unfold RewriteState.mapBlock at h
  split at h
  · next hb => rw [hb, Except.ok.inj h]
  · cases h

theorem TwasmOp.Shaped.one_result (h : op.Shaped) (hbinary : op.opcode.isBinary = false) {opcode' : LlvmOpcode}
    (hllvm : op.opcode.toLlvm = some opcode') : op.resultTypes.length ≤ 1 := by
  obtain ⟨ptr, opcode, resultTypes, operands, successors, attributes⟩ := op
  have hnone : resultTypes = [] → resultTypes.length ≤ 1 := fun hnil => hnil ▸ Nat.zero_le 1
  cases opcode with
  | addi | subi | muli | addf | subf | mulf => cases hbinary
  | load => exact Nat.le_of_eq h.2.1
  | store | condBr => exact hnone h.2.1
  | br | «return» => exact hnone h.1
  | select | bitcast | trunci | extui | extsi | alloca => cases hllvm

/-- The results of an operation that is not a binary one: at most one. -/
theorem insertValues_results (hshaped : op.Shaped) (hbinary : op.opcode.isBinary = false)
    (hllvm : op.opcode.toLlvm = some op'.opcode) (harity : op'.resultTypes.length = op.resultTypes.length) :
    List.Forall₂ (fun v v' => (s.insertValues op.results op'.results).values v = some v') op.results op'.results := by
  have hsmall := hshaped.one_result hbinary hllvm
  unfold Operation.results
  cases hres : op.resultTypes with
  | nil =>
    rw [hres, length_nil] at harity
    rw [length_eq_zero_iff.mp harity]
    exact .nil
  | cons ty tys =>
    rw [hres, length_cons] at hsmall
    obtain rfl := length_eq_zero_iff.mp (Nat.le_zero.mp (Nat.le_of_succ_le_succ hsmall))
    rw [hres] at harity
    obtain ⟨ty', hty'⟩ := length_eq_one_iff.mp harity
    rw [hty']
    exact .cons (update_self _ _ _) .nil

/-- One step of the rewrite. The map of values grows by the results, and an operation that is not a
binary one gets its image. -/
theorem rewriteOp_spec (hk : k < s.func.blocks.length) (hsame : ∀ b b', s.blocks b = some b' → b' = b)
    (hshaped : op.Shaped) (hfresh : ∀ v ∈ op.results, s.values v = none) (h : rewriteOp s k op = .ok s') :
    (∀ v v', s.values v = some v' → s'.values v = some v') ∧ (∀ v, v ∉ op.results → s'.values v = s.values v) ∧
    ∃ added, Emits s s' k added ∧ (op.opcode.isBinary = false →
      ∃ op' ∈ added, Translates .scaffolding s'.values added op op') := by
  obtain ⟨operands, hoperands, h⟩ := bind_eq_ok.mp h
  obtain ⟨successors, hsuccessors, h⟩ := bind_eq_ok.mp h
  obtain ⟨⟨op', s₁⟩, hmapped, h⟩ := bind_eq_ok.mp h
  cases h
  have hops := (mapM_eq_ok hoperands).imp fun _ _ => mapValue_ok
  have hsucc : successors = op.successors := by
    have hall := (mapM_eq_ok hsuccessors).imp fun b b' hb => hsame b b' (mapBlock_ok hb)
    exact (forall₂_eq_eq_eq ▸ hall.imp fun _ _ hb => hb.symm : op.successors = successors).symm
  obtain ⟨hvalues, added, hemits, hrewrites⟩ := rewriteMapped_spec hk hshaped
    hops.length_eq.symm (congrArg List.length hsucc) hmapped
  have hkeep : ∀ v, v ∉ op.results → (s₁.insertValues op.results op'.results).values v = s.values v :=
    fun v hv => (insertValues_of_not_mem hv).trans (congrFun hvalues v)
  have hmono : ∀ v v', s.values v = some v' → (s₁.insertValues op.results op'.results).values v = some v' := by
    intro v v' hv
    rw [hkeep v fun hmem => ?_, hv]
    rw [hfresh v hmem] at hv
    cases hv
  refine ⟨hmono, hkeep, added, ⟨hemits.blocks, hemits.shape, hemits.here, hemits.elsewhere⟩, ?_⟩
  intro hbinary
  obtain ⟨hmem, hopcode, hsuccs, harity, hoperandsMapped⟩ := hrewrites hbinary
  refine ⟨op', hmem, hopcode, hsuccs.trans hsucc, ?_, ?_⟩
  · exact insertValues_results hshaped hbinary hopcode harity
  · exact hoperandsMapped _ (hops.imp fun v v' => hmono v v')

/-! ## Whole functions -/

theorem opsAt_of_get {κ : Type} {F : FuncOp κ} {blk : BasicBlock κ} (h : F.blocks[k]? = some blk) :
    F.opsAt k = blk.ops := by
  rw [FuncOp.opsAt, h]
  rfl

/-- The images of the operations `ops` stand in block `k` of the output. -/
def Converted (s : RewriteState) (k : BlockPtr) (ops : List TwasmOp) : Prop :=
  ∃ ops', List.Sublist ops' (s.func.opsAt k) ∧
    List.Forall₂ (Translates .scaffolding s.values (s.func.opsAt k))
      (ops.filter Scope.scaffolding.converted) ops'

/-- After the operations `done`, the map of values knows the arguments of the blocks and results of
these operations. -/
structure Walked (P : TwasmFunc) (done : List TwasmOp) (s : RewriteState) : Prop where
  shape : s.func.blocks.map (·.argTypes) = P.blocks.map (·.argTypes)
  same : ∀ b b', s.blocks b = some b' → b' = b
  args : ∀ (k : Nat) (blk : BasicBlock TwasmOpcode), P.blocks[k]? = some blk →
    ∀ v ∈ blk.arguments k, s.values v = some v
  results : ∀ p idx ty, s.values (.result p idx ty) ≠ none → p ∈ done.map (·.ptr)

variable {done : List TwasmOp}

theorem Walked.length (h : Walked P done s) : s.func.blocks.length = P.blocks.length := by
  simpa using congrArg List.length h.shape

theorem mem_results (h : v ∈ op.results) : ∃ idx ty, v = .result op.ptr idx ty := by
  obtain ⟨idx, hidx, rfl⟩ := mem_mapIdx.mp h
  exact ⟨idx, _, rfl⟩

theorem Walked.fresh (h : Walked P done s) (hnew : op.ptr ∉ done.map (·.ptr))
    : ∀ v ∈ op.results, s.values v = none := by
  intro v hv
  obtain ⟨idx, ty, rfl⟩ := mem_results hv
  by_contra hne
  exact hnew (h.results _ _ _ hne)

theorem Converted.mono {j k : BlockPtr} {ops : List TwasmOp} (h : Converted s j ops) (hemits : Emits s s' k added)
    (hvalues : ∀ v v', s.values v = some v' → s'.values v = some v') : Converted s' j ops := by
  obtain ⟨ops', hsub, hall⟩ := h
  have hgrows := hemits.sublist j
  exact ⟨ops', hsub.trans hgrows, hall.imp fun _ _ ht => ht.mono hvalues fun _ ho => hgrows.subset ho⟩

/-- One operation more. -/
theorem rewriteOp_walked {here : List TwasmOp} (hwalked : Walked P done s)
    (hk : k < P.blocks.length) (hshaped : op.Shaped) (hnew : op.ptr ∉ done.map (·.ptr)) (hhere : Converted s k here)
    (h : rewriteOp s k op = .ok s') :
    Walked P (done ++ [op]) s' ∧ Converted s' k (here ++ [op]) ∧ ∀ j ops, Converted s j ops → Converted s' j ops := by
  rw [← hwalked.length] at hk
  obtain ⟨hmono, hkeep, added, hemits, htranslates⟩ :=
    rewriteOp_spec hk hwalked.same hshaped (hwalked.fresh hnew) h
  have hgrows : ∀ j ops, Converted s j ops → Converted s' j ops :=
    fun j ops hconv => hconv.mono hemits hmono
  refine ⟨⟨hemits.shape.trans hwalked.shape, ?_, ?_, ?_⟩, ?_, hgrows⟩
  · rw [hemits.blocks]
    exact hwalked.same
  · exact fun j blk hj v hv => hmono v v (hwalked.args j blk hj v hv)
  · intro p idx ty hne
    rw [map_append, mem_append]
    by_cases hmem : Value.result p idx ty ∈ op.results
    · obtain ⟨idx', ty', heq⟩ := mem_results hmem
      cases heq
      exact .inr mem_cons_self
    · rw [hkeep _ hmem] at hne
      exact .inl (hwalked.results p idx ty hne)
  · obtain ⟨ops', hsub, hall⟩ := hhere
    have hall' : List.Forall₂ (Translates .scaffolding s'.values (s'.func.opsAt k))
        (here.filter Scope.scaffolding.converted) ops' := by
      rw [hemits.here]
      exact hall.imp fun _ _ ht => ht.mono hmono fun o ho => mem_append_left _ ho
    have hconv : Scope.scaffolding.converted op = !op.opcode.isBinary := rfl
    rw [Converted, filter_append, hemits.here]
    rw [hemits.here] at hall'
    cases hbinary : op.opcode.isBinary with
    | true =>
      refine ⟨ops', hsub.trans (sublist_append_left _ _), ?_⟩
      simpa [hconv, hbinary] using hall'
    | false =>
      obtain ⟨op', hmem, htrans⟩ := htranslates hbinary
      refine ⟨ops' ++ [op'], hsub.append (singleton_sublist.mpr hmem), ?_⟩
      refine rel_append hall' ?_
      rw [filter_singleton, hconv, hbinary]
      exact .cons (htrans.mono (fun _ _ hv => hv) fun o ho => mem_append_right _ ho) .nil

variable {blk : BasicBlock TwasmOpcode}

/-- A whole block. -/
theorem rewriteBlock_walked (hP : Produced P) {k : Nat} (hk : P.blocks[k]? = some blk)
    (hwalked : Walked P ((P.blocks.take k).flatMap (·.ops)) s) (h : rewriteBlock s (blk, k) = .ok s') :
    Walked P ((P.blocks.take (k + 1)).flatMap (·.ops)) s' ∧ Converted s' k blk.ops ∧
      ∀ j ops, Converted s j ops → Converted s' j ops := by
  obtain ⟨k', hk', h⟩ := bind_eq_ok.mp h
  obtain rfl := hwalked.same k k' (mapBlock_ok hk')
  have hlt := (List.getElem?_eq_some_iff.mp hk).1
  have htake : P.blocks.take (k' + 1) = P.blocks.take k' ++ [blk] := by
    rw [take_add_one, hk]
    rfl
  -- The pointers of the function are all different.
  have hnodup := hP.distinct.nodup
  have hsplit : P.ops = (P.blocks.take k').flatMap (·.ops) ++ (blk.ops ++
      (P.blocks.drop (k' + 1)).flatMap (·.ops)) := by
    rw [FuncOp.ops, ← append_assoc, ← flatMap_singleton (f := fun b : BasicBlock _ => b.ops),
      ← flatMap_append, ← htake, ← flatMap_append, take_append_drop]
  rw [htake, flatMap_append, flatMap_singleton]
  refine foldlM_induct_prefix (fun pre t => Walked P ((P.blocks.take k').flatMap (·.ops) ++ pre) t ∧
      Converted t k' pre ∧ ∀ j ops, Converted s j ops → Converted t j ops) ?_
    ⟨by rwa [append_nil], ⟨[], nil_sublist _, .nil⟩, fun _ _ hconv => hconv⟩ h
  rintro pre op t t' ⟨post, hpost⟩ ⟨hw, hhere, hgrows⟩ hop
  have hperm : P.ops = ((P.blocks.take k').flatMap (·.ops) ++ pre) ++ (op :: (post ++
      (P.blocks.drop (k' + 1)).flatMap (·.ops))) := by
    rw [hsplit, ← hpost]
    simp
  have hmem : op ∈ P.ops := by
    rw [hperm]
    simp
  have hnew : op.ptr ∉ ((P.blocks.take k').flatMap (·.ops) ++ pre).map (·.ptr) := by
    rw [hperm, map_append] at hnodup
    exact fun hold => disjoint_of_nodup_append hnodup hold mem_cons_self
  obtain ⟨hw', hhere', hgrows'⟩ := rewriteOp_walked hw hlt (hP.shaped op hmem) hnew hhere hop
  rw [append_assoc] at hw'
  exact ⟨hw', hhere', fun j ops hconv => hgrows' j ops (hgrows j ops hconv)⟩

/-- The blocks of the output before the first operation is rewritten. -/
structure Copied (P : TwasmFunc) (n : Nat) (s : RewriteState) : Prop where
  blocks : s.func.blocks = (P.blocks.take n).map fun blk => ⟨blk.argTypes, []⟩
  same : ∀ b b', s.blocks b = some b' → b' = b
  args : ∀ (k : Nat) (blk : BasicBlock TwasmOpcode), k < n → P.blocks[k]? = some blk →
    ∀ v ∈ blk.arguments k, s.values v = some v
  results : ∀ p idx ty, s.values (.result p idx ty) = none

theorem mem_arguments {κ : Type} {blk : BasicBlock κ} (h : v ∈ blk.arguments k) :
    ∃ idx ty, v = .argument k idx ty := by
  obtain ⟨idx, hidx, rfl⟩ := mem_mapIdx.mp h
  exact ⟨idx, _, rfl⟩

/-- The arguments of the next block become arguments of its copy. -/
theorem Copied.next {n : Nat} (h : Copied P n s) (hn : P.blocks[n]? = some blk) :
    Copied P (n + 1) (copyBlock s (blk, n)) := by
  have hlt := (List.getElem?_eq_some_iff.mp hn).1
  have hlen : s.func.blocks.length = n := by
    rw [h.blocks, length_map, length_take, Nat.min_eq_left hlt.le]
  have hvalues : (copyBlock s (blk, n)).values = (s.insertValues (blk.arguments n) (blk.arguments n)).values := by
    simp only [copyBlock, hlen]
    rfl
  refine ⟨?_, ?_, ?_, ?_⟩
  · have hblocks : (copyBlock s (blk, n)).func.blocks = s.func.blocks ++ [⟨blk.argTypes, []⟩] := rfl
    rw [hblocks, h.blocks, take_add_one, hn]
    simp
  · intro b b' hb
    have hmap : (copyBlock s (blk, n)).blocks = update s.blocks n (some s.func.blocks.length) :=
      rfl
    rw [hmap, hlen] at hb
    by_cases hbn : b = n
    · subst hbn
      exact (Option.some.inj ((update_self b _ _).symm.trans hb)).symm
    · exact h.same b b' ((update_of_ne hbn _ _).symm.trans hb)
  · intro k other hk hother v hv
    rw [hvalues]
    by_cases hkn : k = n
    · subst hkn
      rw [hn] at hother
      cases hother
      exact insertValues_same hv
    · obtain ⟨idx, ty, rfl⟩ := mem_arguments hv
      have hnot : Value.argument k idx ty ∉ blk.arguments n := by
        intro hmem
        obtain ⟨idx', ty', heq⟩ := mem_arguments hmem
        cases heq
        exact hkn rfl
      rw [insertValues_of_not_mem hnot]
      exact h.args k other (Nat.lt_of_le_of_ne (Nat.le_of_lt_succ hk) hkn) hother _ hv
  · intro p idx ty
    rw [hvalues, insertValues_of_not_mem, h.results]
    intro hmem
    obtain ⟨idx', ty', heq⟩ := mem_arguments hmem
    cases heq

theorem copied_all {n : Nat} (h : Copied P n s) (hn : n ≤ P.blocks.length) :
    Copied P P.blocks.length ((P.blocks.zipIdx.drop n).foldl copyBlock s) := by
  induction hrest : P.blocks.length - n generalizing n s with
  | zero =>
    obtain rfl : n = P.blocks.length := Nat.le_antisymm hn (Nat.sub_eq_zero_iff_le.mp hrest)
    rw [drop_eq_nil_of_le (by simp)]
    exact h
  | succ m ih =>
    have hlt : n < P.blocks.length := by omega
    have hcons : P.blocks.zipIdx.drop n = (P.blocks[n], n) :: P.blocks.zipIdx.drop (n + 1) := by
      rw [drop_eq_getElem_cons (by simpa using hlt)]
      simp
    rw [hcons, foldl_cons]
    exact ih (h.next (List.getElem?_eq_getElem hlt)) hlt (by omega)

/-- Before the first operation nothing has a result. -/
theorem Copied.walked (h : Copied P P.blocks.length s) : Walked P [] s where
  shape := by simp [h.blocks]
  same := h.same
  args k blk hblk := h.args k blk (List.getElem?_eq_some_iff.mp hblk).1 hblk
  results p idx ty hne := absurd (h.results p idx ty) hne

/-- The state in which only the entry block is copied. -/
def entryState (P : TwasmFunc) (entry : BasicBlock TwasmOpcode) : RewriteState :=
  { (⟨new P.name P.params P.returns, fun _ => none, fun _ => none⟩ :
        RewriteState).insertValues (entry.arguments 0) ((⟨P.params, []⟩ : BasicBlock LlvmOpcode).arguments 0) with
    blocks := update (fun _ => none) 0 (some 0) }

theorem entryState_blocks (P : TwasmFunc) (entry : BasicBlock TwasmOpcode) (b : BlockPtr) :
    (entryState P entry).blocks b = if b = 0 then some 0 else none :=
  Function.update_apply (fun _ : BlockPtr => none) 0 (some 0) b

variable {entry : BasicBlock TwasmOpcode}

theorem entryState_values (hparams : entry.argTypes = P.params) : (entryState P entry).values =
      ((⟨new P.name P.params P.returns, fun _ => none, fun _ => none⟩ :
        RewriteState).insertValues (entry.arguments 0) (entry.arguments 0)).values := by
  simp only [entryState, ← hparams]
  rfl

theorem copied_entry (hentry : P.blocks[0]? = some entry) (hparams : entry.argTypes = P.params) :
    Copied P 1 (entryState P entry) where
  blocks := by
    rw [take_add_one, hentry]
    simp [entryState, RewriteState.insertValues, new, hparams]
  same b b' hb := by
    rw [entryState_blocks] at hb
    split at hb
    · next hb0 => exact (Option.some.inj hb).symm.trans hb0.symm
    · cases hb
  args k blk hk hblk v hv := by
    obtain rfl : k = 0 := Nat.lt_one_iff.mp hk
    rw [hentry] at hblk
    cases hblk
    rw [entryState_values hparams]
    exact insertValues_same hv
  results p idx ty := by
    have hnot : Value.result p idx ty ∉ entry.arguments 0 := by
      intro hmem
      obtain ⟨idx', ty', heq⟩ := mem_arguments hmem
      cases heq
    rw [entryState_values hparams]
    exact insertValues_of_not_mem hnot

variable {Q : LlvmFunc}

/-- A conversion that succeeds walks over the copied blocks. -/
theorem twasmToLlvmDialect_walk (hentry : P.blocks[0]? = some entry) (h : twasmToLlvmDialect true P = .ok Q) :
    ∃ s', P.blocks.zipIdx.foldlM rewriteBlock
      ((P.blocks.zipIdx.drop 1).foldl copyBlock (entryState P entry)) = .ok s' ∧ s'.func = Q := by
  simp only [twasmToLlvmDialect, if_true] at h
  split at h
  · cases h
  · next b rest hcons =>
    rw [hcons] at hentry
    cases hentry
    obtain ⟨s', hfold, hdone⟩ := bind_eq_ok.mp h
    exact ⟨s', hfold, Except.ok.inj hdone⟩

/-- The walk over the blocks. -/
theorem rewriteBlocks_walked (hP : Produced P) (hwalked : Walked P [] s)
    (h : P.blocks.zipIdx.foldlM rewriteBlock s = .ok s') :
    Walked P P.ops s' ∧ ∀ (k : Nat) (blk : BasicBlock TwasmOpcode), P.blocks[k]? = some blk →
      Converted s' k blk.ops := by
  suffices hend : Walked P ((P.blocks.take P.blocks.zipIdx.length).flatMap (·.ops)) s' ∧
      ∀ (k : Nat) (blk : BasicBlock TwasmOpcode), k < P.blocks.zipIdx.length → P.blocks[k]? = some blk →
        Converted s' k blk.ops by
    rw [length_zipIdx, take_length] at hend
    exact ⟨hend.1, fun k blk hblk => hend.2 k blk (List.getElem?_eq_some_iff.mp hblk).1 hblk⟩
  refine foldlM_induct_prefix (fun pre t => Walked P ((P.blocks.take pre.length).flatMap (·.ops)) t ∧
      ∀ (k : Nat) (blk : BasicBlock TwasmOpcode), k < pre.length → P.blocks[k]? = some blk →
        Converted t k blk.ops) ?_ ⟨hwalked, fun k _ hk => absurd hk (Nat.not_lt_zero k)⟩ h
  rintro pre b t t' ⟨post, hpost⟩ ⟨hw, hconv⟩ hb
  -- The pair at place `pre.length` is the block there with its place.
  have hget : P.blocks.zipIdx[pre.length]? = some b := by
    rw [← hpost]
    simp
  rw [List.getElem?_zipIdx, Option.map_eq_some_iff] at hget
  obtain ⟨blk, hblk, rfl⟩ := hget
  rw [Nat.zero_add] at hb
  obtain ⟨hw', hhere, hgrows⟩ := rewriteBlock_walked hP hblk hw hb
  rw [length_append, length_singleton]
  refine ⟨hw', fun k other hk hother => ?_⟩
  by_cases hlast : k = pre.length
  · subst hlast
    rw [hblk] at hother
    cases hother
    exact hhere
  · exact hgrows k other.ops (hconv k other (Nat.lt_of_le_of_ne (Nat.le_of_lt_succ hk) hlast) hother)

/-- The conversion of a function of the first stage is faithful in the scope of the scaffolding. -/
theorem twasmToLlvmDialect_spec (hP : Produced P) {llvmBackend : Bool}
    (h : twasmToLlvmDialect llvmBackend P = .ok Q) : llvmBackend = true ∧ Faithful .scaffolding P Q := by
  cases llvmBackend with
  | false => cases h
  | true =>
    obtain ⟨entry, hentry, hparams⟩ := hP.entry
    have hcopied := copied_all (copied_entry hentry hparams) (List.getElem?_eq_some_iff.mp hentry).1
    obtain ⟨s', hfold, rfl⟩ := twasmToLlvmDialect_walk hentry h
    obtain ⟨hw, hconv⟩ := rewriteBlocks_walked hP hcopied.walked hfold
    refine ⟨rfl, hw.shape, s'.values, hw.args, fun k => ?_⟩
    cases hblk : P.blocks[k]? with
    | some blk =>
      rw [opsAt_of_get hblk]
      exact hconv k blk hblk
    | none =>
      refine ⟨[], nil_sublist _, ?_⟩
      simp [FuncOp.opsAt, hblk]

/-- Every function of the first stage that is converted is converted faithfully, in the scope of the
scaffolding, and only with the backend. -/
theorem twasm_to_llvm_faithful (identifier : String → Except String Unit) (L : Clif.LoweredFunction)
    (llvmBackend : Bool) (P : TwasmFunc) (Q : LlvmFunc)
    (hP : loweredFunctionToPliron identifier L = .ok P)
    (hQ : twasmToLlvmDialect llvmBackend P = .ok Q) : llvmBackend = true ∧ Faithful .scaffolding P Q :=
  twasmToLlvmDialect_spec (loweredFunctionToPliron_produced hP) hQ

/-- A conditional branch that passes an argument. -/
def passesArgument : Clif.LoweredFunction where
  name := "passes"
  signature := ⟨[.bool, .i32], []⟩
  blocks := [⟨0, [(0, .bool), (1, .i32)], [.condBr 0 1 [1] 2 []]⟩, ⟨1, [(2, .i32)], [.return []]⟩,
    ⟨2, [], [.return []]⟩]
  entry := 0

theorem twasm_to_llvm_faithful_passesArgument : ∃ P Q,
    loweredFunctionToPliron (fun _ => .ok ()) passesArgument = .ok P ∧
      twasmToLlvmDialect true P = .ok Q ∧ Faithful .scaffolding P Q :=
  ⟨_, _, rfl, rfl, (twasm_to_llvm_faithful (fun _ => .ok ()) passesArgument true _ _ rfl rfl).2⟩

/-! ## What is not kept -/

theorem Faithful.length_le (h : Faithful .full P Q) (k : BlockPtr) : (P.opsAt k).length ≤ (Q.opsAt k).length := by
  obtain ⟨-, image, -, hops⟩ := h
  obtain ⟨ops', hsub, hall⟩ := hops k
  have hfilter : (P.opsAt k).filter Scope.full.converted = P.opsAt k :=
    filter_eq_self.mpr fun _ _ => rfl
  rw [hfilter] at hall
  exact hall.length_eq ▸ hsub.length_le

theorem Faithful.translates (h : Faithful .full P Q) (hop : op ∈ P.opsAt k) :
    ∃ image, ∃ op' ∈ Q.opsAt k, Translates .full image (Q.opsAt k) op op' := by
  obtain ⟨-, image, -, hops⟩ := h
  obtain ⟨ops', hsub, hall⟩ := hops k
  obtain ⟨op', hop', ht⟩ := forall₂_left hall (mem_filter.mpr ⟨hop, rfl⟩)
  exact ⟨image, op', hsub.subset hop', ht⟩

/-- A sum that is returned. -/
def returnsSum : Clif.LoweredFunction where
  name := "sum"
  signature := ⟨[.i32, .i32], [.i32]⟩
  blocks := [⟨0, [(0, .i32), (1, .i32)], [.arith .addI .i32 0 1 2, .return [2]]⟩]
  entry := 0

/-- An access at a field eight bytes into a record. -/
def loadsField : Clif.LoweredFunction where
  name := "field"
  signature := ⟨[.ptr], [.i32]⟩
  blocks := [⟨0, [(0, .ptr)], [.load .i32 0 8 1, .return [1]]⟩]
  entry := 0

/-- The function is converted, and its image is not faithful. -/
def Loses (L : Clif.LoweredFunction) : Prop :=
  ∃ P Q, loweredFunctionToPliron (fun _ => .ok ()) L = .ok P ∧ twasmToLlvmDialect true P = .ok Q ∧
    ¬ Faithful .full P Q

/-- The argument of the branch, the sum and the offset of the access are lost. -/
theorem conversion_loses : Loses passesArgument ∧ Loses returnsSum ∧ Loses loadsField := by
  refine ⟨?_, ?_, ?_⟩
  · refine ⟨_, _, rfl, rfl, fun h => ?_⟩
    -- The image of the branch has the condition as its only operand.
    obtain ⟨image, op', hop', ht⟩ := h.translates (k := 0) mem_cons_self
    obtain rfl := mem_singleton.mp hop'
    cases ht.operands.length_eq
  · refine ⟨_, _, rfl, rfl, fun h => ?_⟩
    exact absurd (h.length_le 0) (by decide)
  · refine ⟨_, _, rfl, rfl, fun h => ?_⟩
    obtain ⟨image, op', hop', ht⟩ := h.translates (k := 0) mem_cons_self
    obtain ⟨base, base', ptr, n, -, -, -, haddr, hn⟩ := ht.operands
    cases haddr with
    | intToPtr => cases hn rfl
    | getElementPtr hbase hc hopcode =>
      simp only [FuncOp.opsAt] at hc
      fin_cases hc <;> cases hopcode

end TensorWasm.Pliron
