import TensorWasm.Jit.PtxEmit
import TensorWasm.Lib.DefUse
import TensorWasm.Lib.LaneStack

/-!
# The registers of an emitted kernel

The value stack of `lower_body` holds bare indices, and an operand is read in the register class of the op that
takes it. `stackOps` runs an op list over a stack of register classes instead; as long as each op finds slots
of its own class there, the indices are in step with the classes (`Typed`), and every operand was written
before. An op that finds the stack empty gets a fresh register that nothing has written.
-/

namespace TensorWasm.Jit

open Lib List
open EmitState (write)

/-! ## The registers of a line -/

/-- The register files a kernel declares and uses. -/
inductive RegFile
  | f | r | rd | rb
  deriving DecidableEq

def RegClass.file : RegClass → RegFile
  | .f32 => .f
  | .s32 => .r

/-- A register, such as `%rd1`. -/
abbrev Reg := RegFile × Nat

/-- The registers of a fragment. -/
def fragRegs (file : RegFile) (base count : Nat) : List Reg := (List.range count).map fun i => (file, base + i)

/-- What the lines of an instruction do to the registers, the pointer of an access included. -/
def PtxInstr.accesses : PtxInstr → List (Access Reg)
  | .comment _ | .barSync => []
  | .arith2 _ cls dst a b => [⟨[(cls.file, a), (cls.file, b)], [(cls.file, dst)]⟩]
  | .arith3 _ cls dst a b c => [⟨[(cls.file, a), (cls.file, b), (cls.file, c)], [(cls.file, dst)]⟩]
  | .ld _ cls dst _ => [⟨[(.rd, 0)], [(cls.file, dst)]⟩]
  | .st _ cls src _ => [⟨[(.rd, 1), (cls.file, src)], []⟩]
  | .wmma aFrag bFrag accFrag bBase cBase =>
    let a := fragRegs .rb aFrag wmmaOperandFragRegs
    let b := fragRegs .rb bFrag wmmaOperandFragRegs
    let acc := fragRegs .f accFrag wmmaAccFragRegs
    [⟨[(.rd, 0)], [(.rd, bBase)]⟩, ⟨[(.rd, 0)], [(.rd, cBase)]⟩, ⟨[(.rd, 0)], a⟩, ⟨[(.rd, bBase)], b⟩,
      ⟨[(.rd, cBase)], acc⟩, ⟨a ++ b ++ acc, acc⟩, ⟨(.rd, 1) :: acc, []⟩]

/-- The three `ld.param` lines before the body. -/
def prologueAccesses : List (Access Reg) :=
  [⟨[], [(.rd, 0)]⟩, ⟨[], [(.rd, 1)]⟩, ⟨[], [(.r, 0)]⟩]

/-- What the lines of a kernel with this body do to the registers. -/
def kernelAccesses (body : List PtxInstr) : List (Access Reg) :=
  prologueAccesses ++ body.flatMap PtxInstr.accesses

/-- The count in the `.reg` line of a file. -/
def LoweredBody.declared (l : LoweredBody) : RegFile → Nat
  | .f => l.maxF
  | .r => l.maxS32
  | .rd => l.maxS64
  | .rb => l.maxB32

/-- Every register of a line is declared. -/
def RegsDeclared (l : LoweredBody) : Prop :=
  ∀ a ∈ kernelAccesses l.body, ∀ reg ∈ a.reads ++ a.writes, reg.2 < l.declared reg.1

/-! ## A stack of register classes -/

/-- Take a slot of a class. On an empty stack there is none to take, which only matters if it is `strict`. -/
def takeSlot (strict : Bool) (cls : RegClass) : List RegClass → Option (List RegClass)
  | [] => if strict then none else some []
  | c :: st => if c = cls then some st else none

def takeSlots (strict : Bool) (cls : RegClass) : Nat → List RegClass → Option (List RegClass)
  | 0, st => some st
  | n + 1, st => (takeSlot strict cls st).bind (takeSlots strict cls n)

/-- One lane of an arithmetic op. -/
def arithSlots (strict : Bool) (cls : RegClass) (operands : Nat) (st : List RegClass) : Option (List RegClass) :=
  (takeSlots strict cls operands st).map (cls :: ·)

def stackOp (strict : Bool) (op : TensorWasmOp) (st : List RegClass) : Option (List RegClass) :=
  match op with
  | .vecAdd elem lanes | .vecMul elem lanes => repeatLane (arithSlots strict (.forElem elem) 2) lanes.toNat st
  | .vecFma elem lanes => repeatLane (arithSlots strict (.forElem elem) 3) lanes.toNat st
  | .loadUnified elem lanes => repeatLane (arithSlots strict (.forElem elem) 0) lanes.toNat st
  | .storeUnified elem lanes => repeatLane (takeSlot strict (.forElem elem)) lanes.toNat st
  | .matMul .. | .barrier => some st

def stackOps (strict : Bool) : List TensorWasmOp → List RegClass → Option (List RegClass)
  | [], st => some st
  | op :: ops, st => (stackOp strict op st).bind (stackOps strict ops)

/-- No op takes a slot that an op of the other register class pushed. -/
def classesMatch (bp : TensorWasmKernelBlueprint) : Bool := (stackOps false bp.ops []).isSome

/-- Every op finds its operands on the stack, pushed by ops of its own register class. -/
def operandsSupplied (bp : TensorWasmKernelBlueprint) : Bool := (stackOps true bp.ops []).isSome

/-! ## The invariant -/

/-- The count of registers allocated so far. -/
def EmitState.count (s : EmitState) : RegFile → Nat
  | .f => s.nextF
  | .r => s.nextR
  | .rd => s.maxS64
  | .rb => s.maxB32

def EmitState.lines (s : EmitState) : List (Access Reg) := kernelAccesses s.body

/-- A register that an instruction may read: it is allocated and, with a strict stack, written. -/
structure Usable (strict : Bool) (s : EmitState) (reg : Reg) : Prop where
  bounded : reg.2 < s.count reg.1
  defined : strict = true → reg ∈ written s.lines

/-- The value stack holds usable registers of these classes. -/
structure Typed (strict : Bool) (s : EmitState) (st : List RegClass) : Prop where
  stack : List.Forall₂ (fun cls n => Usable strict s (cls.file, n)) st s.valueStack
  pointers : 2 ≤ s.maxS64
  bounded : ∀ a ∈ s.lines, ∀ reg ∈ a.reads ++ a.writes, reg.2 < s.count reg.1
  defined : strict = true → DefinedFrom [] s.lines

variable {strict : Bool} {s s' : EmitState} {st st' : List RegClass} {cls : RegClass}
  {n : Nat} {i : PtxInstr} {reads : List Reg} {m : Mnemonic} {elem : ElemType} {cfg : EmitConfig}
  {lane : EmitState → Except EmitError EmitState}

theorem typed_init : Typed strict .init [] where
  stack := .nil
  pointers := Nat.le_refl 2
  bounded := by decide
  defined := fun _ => by decide

@[simp] theorem lines_write (s : EmitState) (i : PtxInstr) : (s.write i).lines = s.lines ++ i.accesses := by
  simp [EmitState.lines, write, kernelAccesses]

/-! ## Allocation -/

/-- What allocating a register does. -/
def EmitState.bump (s : EmitState) : RegClass → EmitState
  | .f32 => { s with nextF := s.nextF + 1 }
  | .s32 => { s with nextR := s.nextR + 1 }

theorem alloc_eq_ok {p : Nat × EmitState} (h : alloc cls s = .ok p) : p = (s.count cls.file, s.bump cls) := by
  cases cls with
  | f32 | s32 =>
    obtain ⟨next, hnext, h⟩ := bind_eq_ok.mp h
    obtain rfl := checkedAddU32_eq_ok hnext
    exact (Except.ok.inj h).symm

theorem count_le_bump (s : EmitState) (cls : RegClass) (file : RegFile) : s.count file ≤ (s.bump cls).count file := by
  cases cls <;> cases file <;> simp [EmitState.bump, EmitState.count]

theorem count_lt_bump (s : EmitState) (cls : RegClass) : s.count cls.file < (s.bump cls).count cls.file := by
  cases cls <;> simp [EmitState.bump, EmitState.count, RegClass.file]

/-- The lines written and the stack stay, and no register is given back. -/
structure Allocates (s s' : EmitState) : Prop where
  body : s'.body = s.body
  inOff : s'.inOff = s.inOff
  outOff : s'.outOff = s.outOff
  count : ∀ file, s.count file ≤ s'.count file

theorem Allocates.trans {s'' : EmitState} (h : Allocates s s') (h' : Allocates s' s'') : Allocates s s'' :=
  ⟨h'.body.trans h.body, h'.inOff.trans h.inOff, h'.outOff.trans h.outOff,
    fun file => Nat.le_trans (h.count file) (h'.count file)⟩

theorem Allocates.usable {reg : Reg} (h : Allocates s s') (hreg : Usable strict s reg) : Usable strict s' reg := by
  refine ⟨Nat.lt_of_lt_of_le hreg.bounded (h.count _), ?_⟩
  rw [EmitState.lines, h.body]
  exact hreg.defined

theorem allocates_bump (s : EmitState) (cls : RegClass) : Allocates s (s.bump cls) := by
  cases cls with
  | f32 => exact ⟨rfl, rfl, rfl, count_le_bump s .f32⟩
  | s32 => exact ⟨rfl, rfl, rfl, count_le_bump s .s32⟩

theorem alloc_allocates (h : alloc cls s = .ok (n, s')) : Allocates s s' := by
  cases alloc_eq_ok h
  exact allocates_bump s cls

theorem popOrAlloc_allocates (h : popOrAlloc cls s = .ok (n, s')) : Allocates s s' := by
  unfold popOrAlloc at h
  split at h
  · cases h
    exact ⟨rfl, rfl, rfl, fun _ => Nat.le_refl _⟩
  · cases alloc_eq_ok h
    exact allocates_bump s cls

theorem fragRegs_bounded (file : RegFile) {base count : Nat} (h : base + count ≤ s.count file) :
    ∀ reg ∈ fragRegs file base count, reg.2 < s.count reg.1 := by
  intro reg hreg
  obtain ⟨i, hi, rfl⟩ := mem_map.mp hreg
  have := mem_range.mp hi
  show base + i < s.count file
  omega

/-- The lines of a wmma step read the two pointers and what the lines before them write. -/
theorem wmma_defined {known : List Reg} (h0 : (.rd, 0) ∈ known) (h1 : (.rd, 1) ∈ known)
    (aFrag bFrag accFrag bBase cBase : Nat) :
    DefinedFrom known (PtxInstr.wmma aFrag bFrag accFrag bBase cBase).accesses := by
  simp only [PtxInstr.accesses, DefinedFrom, forall_mem_cons, forall_mem_append]
  simp +contextual [h0, h1]

/-! ## What keeps it -/

section Keeps

variable (h : Typed strict s st)

include h

theorem pointer_usable (hn : n < 2) : Usable strict s (.rd, n) := by
  refine ⟨Nat.lt_of_lt_of_le hn h.pointers, fun _ => ?_⟩
  rw [EmitState.lines, kernelAccesses, written_append]
  refine mem_append_left _ ?_
  match n, hn with
  | 0, _ => decide
  | 1, _ => decide

/-- Nothing but counters moves up. -/
theorem Typed.grow (hbody : s'.body = s.body) (hstack : s'.valueStack = s.valueStack)
    (hcount : ∀ file, s.count file ≤ s'.count file) : Typed strict s' st := by
  have hlines : s'.lines = s.lines := by rw [EmitState.lines, hbody, EmitState.lines]
  refine ⟨?_, Nat.le_trans h.pointers (hcount .rd), ?_, ?_⟩
  · rw [hstack]
    refine h.stack.imp fun cls n hn => ⟨Nat.lt_of_lt_of_le hn.bounded (hcount _), ?_⟩
    rw [hlines]
    exact hn.defined
  · rw [hlines]
    exact fun a ha reg hreg => Nat.lt_of_lt_of_le (h.bounded a ha reg hreg) (hcount _)
  · rw [hlines]
    exact h.defined

/-- A line over allocated registers that reads written ones. -/
theorem Typed.write (hbounded : ∀ a ∈ i.accesses, ∀ reg ∈ a.reads ++ a.writes, reg.2 < s.count reg.1)
    (hdefined : strict = true → DefinedFrom (written s.lines) i.accesses) : Typed strict (s.write i) st := by
  refine ⟨?_, h.pointers, ?_, ?_⟩
  · refine h.stack.imp fun cls n hn => ⟨hn.bounded, fun hs => ?_⟩
    rw [lines_write, written_append]
    exact mem_append_left _ (hn.defined hs)
  · intro a ha
    rw [lines_write, mem_append] at ha
    exact ha.elim (h.bounded a) (hbounded a)
  · intro hs
    rw [lines_write, definedFrom_append]
    exact ⟨h.defined hs, hdefined hs⟩

/-- A line that uses no register. -/
theorem Typed.writeNone (hi : i.accesses = []) : Typed strict (s.write i) st := by
  refine h.write ?_ ?_
  · rw [hi]
    exact fun a ha => nomatch ha
  · rw [hi]
    exact fun _ => trivial

/-- A line that reads usable registers and writes allocated ones. -/
theorem Typed.writeOne {writes : List Reg}
    (hi : i.accesses = [⟨reads, writes⟩]) (hreads : ∀ reg ∈ reads, Usable strict s reg)
    (hwrites : ∀ reg ∈ writes, reg.2 < s.count reg.1) : Typed strict (s.write i) st := by
  refine h.write ?_ ?_
  · rw [hi]
    intro a ha reg hreg
    obtain rfl := mem_singleton.mp ha
    exact (mem_append.mp hreg).elim (fun hr => (hreads reg hr).bounded) (hwrites reg)
  · rw [hi]
    exact fun hs => ⟨fun reg hr => (hreads reg hr).defined hs, trivial⟩

/-- A line whose result goes on the stack. -/
theorem Typed.push (hi : i.accesses = [⟨reads, [(cls.file, n)]⟩]) (hreads : ∀ reg ∈ reads, Usable strict s reg)
    (hn : n < s.count cls.file) : Typed strict { s.write i with valueStack := n :: s.valueStack } (cls :: st) := by
  have hwritten := h.writeOne hi hreads fun reg hreg => by
    obtain rfl := mem_singleton.mp hreg
    exact hn
  refine ⟨.cons ⟨hn, fun _ => ?_⟩ (hwritten.stack.imp fun _ _ hu => ⟨hu.bounded, hu.defined⟩),
    hwritten.pointers, hwritten.bounded, hwritten.defined⟩
  show _ ∈ written (s.write i).lines
  rw [lines_write, written_append, hi]
  exact mem_append_right _ (mem_singleton.mpr rfl)

theorem Typed.bump (cls : RegClass) : Typed strict (s.bump cls) st :=
  h.grow (allocates_bump s cls).body (by cases cls <;> rfl) (count_le_bump s cls)

/-- An operand that the typed stack has, or need not have, is usable. -/
theorem popOrAlloc_typed (hslot : takeSlot strict cls st = some st')
    (hpop : popOrAlloc cls s = .ok (n, s')) : Typed strict s' st' ∧ Usable strict s' (cls.file, n) := by
  unfold popOrAlloc at hpop
  cases hvs : s.valueStack with
  | nil =>
    rw [hvs] at hpop
    cases alloc_eq_ok hpop
    have hstack := h.stack
    rw [hvs, forall₂_nil_right_iff] at hstack
    subst hstack
    cases strict with
    | false =>
      cases hslot
      exact ⟨h.bump cls, count_lt_bump s cls, fun hs => nomatch hs⟩
    | true => exact nomatch hslot
  | cons r rest =>
    rw [hvs] at hpop
    cases hpop
    have hstack := h.stack
    rw [hvs, forall₂_cons_right_iff] at hstack
    obtain ⟨c, below, hr, hbelow, rfl⟩ := hstack
    rw [takeSlot] at hslot
    split at hslot
    · subst c
      cases hslot
      exact ⟨⟨hbelow.imp fun _ _ hu => ⟨hu.bounded, hu.defined⟩, h.pointers, h.bounded, h.defined⟩,
        hr.bounded, hr.defined⟩
    · cases hslot

/-! ## One lane -/

/-- The result register and the line that writes it, once the operands are there. -/
theorem Typed.result (hi : i.accesses = [⟨reads, [(cls.file, s.count cls.file)]⟩])
    (hreads : ∀ reg ∈ reads, Usable strict s reg) :
    Typed strict { (s.bump cls).write i with valueStack := s.count cls.file :: (s.bump cls).valueStack }
      (cls :: st) :=
  (h.bump cls).push hi (fun reg hreg => (allocates_bump s cls).usable (hreads reg hreg)) (count_lt_bump s cls)

theorem lowerLane2_typed (hslot : arithSlots strict cls 2 st = some st')
    (hlane : lowerLane2 m cls s = .ok s') : Typed strict s' st' := by
  obtain ⟨below, htake, rfl⟩ := Option.map_eq_some_iff.mp hslot
  obtain ⟨st1, hb, htake⟩ := Option.bind_eq_some_iff.mp htake
  obtain ⟨st2, ha, htake⟩ := Option.bind_eq_some_iff.mp htake
  cases htake
  obtain ⟨⟨b, s1⟩, hpopB, hlane⟩ := bind_eq_ok.mp hlane
  obtain ⟨⟨a, s2⟩, hpopA, hlane⟩ := bind_eq_ok.mp hlane
  obtain ⟨p, hdst, hlane⟩ := bind_eq_ok.mp hlane
  obtain rfl := alloc_eq_ok hdst
  cases hlane
  obtain ⟨h1, hub⟩ := popOrAlloc_typed h hb hpopB
  obtain ⟨h2, hua⟩ := popOrAlloc_typed h1 ha hpopA
  replace hub := (popOrAlloc_allocates hpopA).usable hub
  refine h2.result rfl ?_
  simp only [forall_mem_cons, not_mem_nil, false_imp_iff, implies_true, and_true]
  exact ⟨hua, hub⟩

theorem lowerLane3_typed (hslot : arithSlots strict cls 3 st = some st')
    (hlane : lowerLane3 m cls s = .ok s') : Typed strict s' st' := by
  obtain ⟨below, htake, rfl⟩ := Option.map_eq_some_iff.mp hslot
  obtain ⟨st1, hc, htake⟩ := Option.bind_eq_some_iff.mp htake
  obtain ⟨st2, hb, htake⟩ := Option.bind_eq_some_iff.mp htake
  obtain ⟨st3, ha, htake⟩ := Option.bind_eq_some_iff.mp htake
  cases htake
  obtain ⟨⟨c, s1⟩, hpopC, hlane⟩ := bind_eq_ok.mp hlane
  obtain ⟨⟨b, s2⟩, hpopB, hlane⟩ := bind_eq_ok.mp hlane
  obtain ⟨⟨a, s3⟩, hpopA, hlane⟩ := bind_eq_ok.mp hlane
  obtain ⟨p, hdst, hlane⟩ := bind_eq_ok.mp hlane
  obtain rfl := alloc_eq_ok hdst
  cases hlane
  obtain ⟨h1, huc⟩ := popOrAlloc_typed h hc hpopC
  obtain ⟨h2, hub⟩ := popOrAlloc_typed h1 hb hpopB
  obtain ⟨h3, hua⟩ := popOrAlloc_typed h2 ha hpopA
  replace hub := (popOrAlloc_allocates hpopA).usable hub
  replace huc := ((popOrAlloc_allocates hpopB).trans (popOrAlloc_allocates hpopA)).usable huc
  refine h3.result rfl ?_
  simp only [forall_mem_cons, not_mem_nil, false_imp_iff, implies_true, and_true]
  exact ⟨hua, hub, huc⟩

theorem lowerLaneLoad_typed (hslot : arithSlots strict (.forElem elem) 0 st = some st')
    (hlane : lowerLaneLoad elem s = .ok s') : Typed strict s' st' := by
  cases hslot
  obtain ⟨p, hdst, hlane⟩ := bind_eq_ok.mp hlane
  obtain rfl := alloc_eq_ok hdst
  obtain ⟨off, -, hlane⟩ := bind_eq_ok.mp hlane
  cases hlane
  have hresult := h.result
    (i := .ld (loadStoreType elem) (.forElem elem) (s.count (RegClass.forElem elem).file)
      (s.bump (.forElem elem)).inOff)
    rfl fun reg hreg => by
      obtain rfl := mem_singleton.mp hreg
      exact pointer_usable h (by decide)
  exact hresult.grow rfl rfl fun _ => Nat.le_refl _

theorem lowerLaneStore_typed (hslot : takeSlot strict (.forElem elem) st = some st')
    (hlane : lowerLaneStore elem s = .ok s') : Typed strict s' st' := by
  obtain ⟨⟨src, s1⟩, hpop, hlane⟩ := bind_eq_ok.mp hlane
  obtain ⟨off, -, hlane⟩ := bind_eq_ok.mp hlane
  cases hlane
  obtain ⟨h1, husrc⟩ := popOrAlloc_typed h hslot hpop
  have hwritten := h1.writeOne (i := .st (loadStoreType elem) (.forElem elem) src s1.outOff) rfl
    (by
      simp only [forall_mem_cons, not_mem_nil, false_imp_iff, implies_true, and_true]
      exact ⟨pointer_usable h1 (by decide), husrc⟩)
    fun reg hreg => nomatch hreg
  exact hwritten.grow rfl rfl fun _ => Nat.le_refl _

/-! ## Whole bodies -/

theorem Typed.writeWmma {aFrag bFrag accFrag bBase cBase : Nat}
    (ha : aFrag + wmmaOperandFragRegs ≤ s.maxB32) (hb : bFrag + wmmaOperandFragRegs ≤ s.maxB32)
    (hacc : accFrag + wmmaAccFragRegs ≤ s.nextF) (hbBase : bBase < s.maxS64) (hcBase : cBase < s.maxS64) :
    Typed strict (s.write (.wmma aFrag bFrag accFrag bBase cBase)) st := by
  have h0 := pointer_usable h (n := 0) (by decide)
  have h1 := pointer_usable h (n := 1) (by decide)
  refine h.write ?_ fun hs => wmma_defined (h0.defined hs) (h1.defined hs) ..
  have ha' := fragRegs_bounded .rb ha
  have hb' := fragRegs_bounded .rb hb
  have hacc' := fragRegs_bounded .f hacc
  simp only [PtxInstr.accesses, forall_mem_cons, forall_mem_append]
  exact ⟨⟨⟨h0.bounded, nofun⟩, hbBase, nofun⟩, ⟨⟨h0.bounded, nofun⟩, hcBase, nofun⟩, ⟨⟨h0.bounded, nofun⟩, ha'⟩,
    ⟨⟨hbBase, nofun⟩, hb'⟩, ⟨⟨hcBase, nofun⟩, hacc'⟩, ⟨⟨⟨ha', hb'⟩, hacc'⟩, hacc'⟩,
    ⟨⟨h1.bounded, hacc'⟩, nofun⟩, nofun⟩

theorem lowerWmma_typed (hlow : lowerWmmaM16N16K16 s = .ok s') : Typed strict s' st := by
  obtain ⟨b1, hb1, hlow⟩ := bind_eq_ok.mp hlow
  obtain ⟨b2, hb2, hlow⟩ := bind_eq_ok.mp hlow
  obtain ⟨acc, hacc, hlow⟩ := bind_eq_ok.mp hlow
  obtain ⟨s64, hs64, hlow⟩ := bind_eq_ok.mp hlow
  replace hb1 := checkedAddU32_eq_ok hb1
  replace hb2 := checkedAddU32_eq_ok hb2
  replace hacc := checkedAddU32_eq_ok hacc
  replace hs64 := checkedAddU32_eq_ok hs64
  cases hlow
  -- the counters first, so that the fragments are allocated when the lines are written
  have hgrown : Typed strict { s with maxB32 := b2, nextF := acc, maxS64 := s64 } st := by
    refine h.grow rfl rfl fun file => ?_
    cases file <;> simp only [EmitState.count] <;> omega
  refine hgrown.writeWmma ?_ ?_ ?_ ?_ ?_ <;> simp only <;> omega

omit h in
theorem lowerLanes_typed {slots : List RegClass → Option (List RegClass)}
    (hlane : ∀ {s s' st st'}, Typed strict s st → slots st = some st' → lane s = .ok s' → Typed strict s' st')
    (h : Typed strict s st) (hslots : repeatLane slots n st = some st')
    (hlow : lowerLanes lane n s = .ok s') : Typed strict s' st' := by
  induction n generalizing s st with
  | zero =>
    cases hslots
    cases hlow
    exact h
  | succ n ih =>
    obtain ⟨st1, hst1, hslots⟩ := Option.bind_eq_some_iff.mp hslots
    obtain ⟨s1, hs1, hlow⟩ := bind_eq_ok.mp hlow
    exact ih (hlane h hst1 hs1) hslots hlow

theorem lowerOp_typed {op : TensorWasmOp} (hstack : stackOp strict op st = some st')
    (hlow : lowerOp cfg op s = .ok s') : Typed strict s' st' := by
  cases op with
  | vecAdd elem lanes | vecMul elem lanes =>
    obtain ⟨m, -, hlow⟩ := bind_eq_ok.mp hlow
    exact lowerLanes_typed lowerLane2_typed (h.writeNone rfl) hstack hlow
  | vecFma elem lanes =>
    simp only [lowerOp] at hlow
    split at hlow
    · cases hlow
    · obtain ⟨m, -, hlow⟩ := bind_eq_ok.mp hlow
      exact lowerLanes_typed lowerLane3_typed (h.writeNone rfl) hstack hlow
  | matMul m n k =>
    cases hstack
    simp only [lowerOp] at hlow
    split_ifs at hlow
    exact lowerWmma_typed h hlow
  | loadUnified elem lanes => exact lowerLanes_typed lowerLaneLoad_typed (h.writeNone rfl) hstack hlow
  | storeUnified elem lanes => exact lowerLanes_typed lowerLaneStore_typed (h.writeNone rfl) hstack hlow
  | barrier =>
    cases hstack
    cases hlow
    exact h.writeNone rfl

theorem lowerOps_typed {ops : List TensorWasmOp} (hstack : stackOps strict ops st = some st')
    (hlow : lowerOps cfg ops s = .ok s') : Typed strict s' st' := by
  induction ops generalizing s st with
  | nil =>
    cases hstack
    cases hlow
    exact h
  | cons op ops ih =>
    obtain ⟨st1, hst1, hstack⟩ := Option.bind_eq_some_iff.mp hstack
    obtain ⟨s1, hs1, hlow⟩ := bind_eq_ok.mp hlow
    exact ih (lowerOp_typed h hst1 hs1) hstack hlow

end Keeps

/-! ## Access widths -/

/-- The bytes that an access moves. -/
def LdStType.width : LdStType → Nat
  | .f32 | .u32 => 4

/-- The type and offset of a load. -/
def PtxInstr.load? : PtxInstr → Option (LdStType × Nat)
  | .ld ty _ _ off => some (ty, off)
  | _ => none

/-- The type and offset of a store. -/
def PtxInstr.store? : PtxInstr → Option (LdStType × Nat)
  | .st ty _ _ off => some (ty, off)
  | _ => none

/-- The element types that an op loads, one for each lane. -/
def TensorWasmOp.loads : TensorWasmOp → List ElemType
  | .loadUnified elem lanes => List.replicate lanes.toNat elem
  | _ => []

def TensorWasmOp.stores : TensorWasmOp → List ElemType
  | .storeUnified elem lanes => List.replicate lanes.toNat elem
  | _ => []

/-- The accesses are those of the elements one after the other, each at the sum of the widths before it; one of
a four-byte element moves as many bytes as the element is wide. -/
def Covers : Nat → List ElemType → List (LdStType × Nat) → Prop
  | _, [], [] => True
  | off, elem :: elems, (ty, start) :: accs =>
    (elem.byteWidth = 4 → ty.width = elem.byteWidth) ∧ start = off ∧ Covers (off + elem.byteWidth) elems accs
  | _, _, _ => False

def totalWidth (elems : List ElemType) : Nat := (elems.map ElemType.byteWidth).sum

theorem Covers.snoc {off : Nat} {elems : List ElemType} {accs : List (LdStType × Nat)} {ty : LdStType}
    (h : Covers off elems accs) (hty : elem.byteWidth = 4 → ty.width = elem.byteWidth) :
    Covers off (elems ++ [elem]) (accs ++ [(ty, off + totalWidth elems)]) := by
  fun_induction Covers off elems accs with
  | case1 off => exact ⟨hty, rfl, trivial⟩
  | case2 off e elems t start accs ih =>
    obtain ⟨he, hstart, hrest⟩ := h
    refine ⟨he, hstart, ?_⟩
    have hsum : off + totalWidth (e :: elems) = off + e.byteWidth + totalWidth elems := by
      simp [totalWidth, Nat.add_assoc]
    rw [hsum]
    exact ih hrest
  | case3 => exact h.elim

theorem width_loadStoreType (h : elem.byteWidth = 4) : (loadStoreType elem).width = elem.byteWidth := by
  rw [h, loadStoreType]
  split <;> rfl

/-- The loads and stores written so far are those of these elements, and the offsets stand behind them. -/
structure Tiled (s : EmitState) (ins outs : List ElemType) : Prop where
  loads : Covers 0 ins (s.body.filterMap PtxInstr.load?)
  stores : Covers 0 outs (s.body.filterMap PtxInstr.store?)
  inOff : s.inOff = totalWidth ins
  outOff : s.outOff = totalWidth outs

variable {ins outs : List ElemType}

theorem tiled_init : Tiled .init [] [] := ⟨trivial, trivial, rfl, rfl⟩

/-- A line that is no such access. -/
theorem Covers.line {off : Nat} {elems : List ElemType} {access? : PtxInstr → Option (LdStType × Nat)}
    (h : Covers off elems (s.body.filterMap access?)) (hi : access? i = none) :
    Covers off elems ((s.write i).body.filterMap access?) := by
  simpa [write, hi] using h

variable (h : Tiled s ins outs)

include h

theorem Tiled.of_allocates (ha : Allocates s s') : Tiled s' ins outs := by
  refine ⟨?_, ?_, ha.inOff.trans h.inOff, ha.outOff.trans h.outOff⟩
  · rw [ha.body]
    exact h.loads
  · rw [ha.body]
    exact h.stores

theorem Tiled.write (hload : i.load? = none) (hstore : i.store? = none) : Tiled (s.write i) ins outs :=
  ⟨h.loads.line hload, h.stores.line hstore, h.inOff, h.outOff⟩

theorem Tiled.withStack (vs : List Nat) : Tiled { s with valueStack := vs } ins outs :=
  ⟨h.loads, h.stores, h.inOff, h.outOff⟩

theorem lowerLane2_tiled (hlane : lowerLane2 m cls s = .ok s') : Tiled s' ins outs := by
  obtain ⟨⟨b, s1⟩, hpopB, hlane⟩ := bind_eq_ok.mp hlane
  obtain ⟨⟨a, s2⟩, hpopA, hlane⟩ := bind_eq_ok.mp hlane
  obtain ⟨⟨dst, s3⟩, hdst, hlane⟩ := bind_eq_ok.mp hlane
  cases hlane
  have h3 := h.of_allocates
    (((popOrAlloc_allocates hpopB).trans (popOrAlloc_allocates hpopA)).trans (alloc_allocates hdst))
  exact (h3.write rfl rfl).withStack _

theorem lowerLane3_tiled (hlane : lowerLane3 m cls s = .ok s') : Tiled s' ins outs := by
  obtain ⟨⟨c, s1⟩, hpopC, hlane⟩ := bind_eq_ok.mp hlane
  obtain ⟨⟨b, s2⟩, hpopB, hlane⟩ := bind_eq_ok.mp hlane
  obtain ⟨⟨a, s3⟩, hpopA, hlane⟩ := bind_eq_ok.mp hlane
  obtain ⟨⟨dst, s4⟩, hdst, hlane⟩ := bind_eq_ok.mp hlane
  cases hlane
  have h2 := h.of_allocates ((popOrAlloc_allocates hpopC).trans (popOrAlloc_allocates hpopB))
  have h4 := h2.of_allocates ((popOrAlloc_allocates hpopA).trans (alloc_allocates hdst))
  exact (h4.write rfl rfl).withStack _

theorem lowerLaneLoad_tiled (hlane : lowerLaneLoad elem s = .ok s') : Tiled s' (ins ++ [elem]) outs := by
  obtain ⟨⟨dst, s1⟩, hdst, hlane⟩ := bind_eq_ok.mp hlane
  obtain ⟨off, hoff, hlane⟩ := bind_eq_ok.mp hlane
  obtain rfl := checkedAddU32_eq_ok hoff
  cases hlane
  have h1 := h.of_allocates (alloc_allocates hdst)
  have hin := h1.inOff
  refine ⟨?_, ?_, ?_, h1.outOff⟩
  · have hsnoc := h1.loads.snoc fun hw : elem.byteWidth = 4 => width_loadStoreType hw
    rw [Nat.zero_add, ← hin] at hsnoc
    simpa [write, PtxInstr.load?] using hsnoc
  · exact h1.stores.line rfl
  · show s1.inOff + elem.byteWidth = totalWidth (ins ++ [elem])
    simp [hin, totalWidth]

theorem lowerLaneStore_tiled (hlane : lowerLaneStore elem s = .ok s') : Tiled s' ins (outs ++ [elem]) := by
  obtain ⟨⟨src, s1⟩, hpop, hlane⟩ := bind_eq_ok.mp hlane
  obtain ⟨off, hoff, hlane⟩ := bind_eq_ok.mp hlane
  obtain rfl := checkedAddU32_eq_ok hoff
  cases hlane
  have h1 := h.of_allocates (popOrAlloc_allocates hpop)
  have hout := h1.outOff
  refine ⟨?_, ?_, h1.inOff, ?_⟩
  · exact h1.loads.line rfl
  · have hsnoc := h1.stores.snoc fun hw : elem.byteWidth = 4 => width_loadStoreType hw
    rw [Nat.zero_add, ← hout] at hsnoc
    simpa [write, PtxInstr.store?] using hsnoc
  · show s1.outOff + elem.byteWidth = totalWidth (outs ++ [elem])
    simp [hout, totalWidth]

omit h in
/-- The lanes of one op, which each add these elements. -/
theorem lowerLanes_tiled (more more' : List ElemType)
    (hlane : ∀ {s s' ins outs}, Tiled s ins outs → lane s = .ok s' → Tiled s' (ins ++ more) (outs ++ more'))
    (h : Tiled s ins outs) (hlow : lowerLanes lane n s = .ok s') :
    Tiled s' (ins ++ (List.replicate n more).flatten) (outs ++ (List.replicate n more').flatten) := by
  induction n generalizing s ins outs with
  | zero =>
    cases hlow
    simpa using h
  | succ n ih =>
    obtain ⟨s1, hs1, hlow⟩ := bind_eq_ok.mp hlow
    have hrest := ih (hlane h hs1) hlow
    simpa [replicate_succ, append_assoc] using hrest

theorem lowerOp_tiled {op : TensorWasmOp} (hlow : lowerOp cfg op s = .ok s') :
    Tiled s' (ins ++ op.loads) (outs ++ op.stores) := by
  cases op with
  | vecAdd elem lanes | vecMul elem lanes =>
    obtain ⟨m, -, hlow⟩ := bind_eq_ok.mp hlow
    have hlanes := lowerLanes_tiled [] []
      (fun h hl => by simpa using lowerLane2_tiled h hl) (h.write rfl rfl) hlow
    simpa [TensorWasmOp.loads, TensorWasmOp.stores] using hlanes
  | vecFma elem lanes =>
    simp only [lowerOp] at hlow
    split at hlow
    · cases hlow
    · obtain ⟨m, -, hlow⟩ := bind_eq_ok.mp hlow
      have hlanes := lowerLanes_tiled [] []
        (fun h hl => by simpa using lowerLane3_tiled h hl) (h.write rfl rfl) hlow
      simpa [TensorWasmOp.loads, TensorWasmOp.stores] using hlanes
  | matMul m n k =>
    simp only [lowerOp] at hlow
    split_ifs at hlow
    obtain ⟨b1, -, hlow⟩ := bind_eq_ok.mp hlow
    obtain ⟨b2, -, hlow⟩ := bind_eq_ok.mp hlow
    obtain ⟨acc, -, hlow⟩ := bind_eq_ok.mp hlow
    obtain ⟨s64, -, hlow⟩ := bind_eq_ok.mp hlow
    cases hlow
    have hwritten := h.write (i := .wmma s.maxB32 b1 s.nextF s.maxS64 (s.maxS64 + 1)) rfl rfl
    simp only [TensorWasmOp.loads, TensorWasmOp.stores, append_nil]
    exact ⟨hwritten.loads, hwritten.stores, hwritten.inOff, hwritten.outOff⟩
  | loadUnified elem lanes =>
    have hlanes := lowerLanes_tiled [elem] []
      (fun h hl => by simpa using lowerLaneLoad_tiled h hl) (h.write rfl rfl) hlow
    simpa [TensorWasmOp.loads, TensorWasmOp.stores] using hlanes
  | storeUnified elem lanes =>
    have hlanes := lowerLanes_tiled [] [elem]
      (fun h hl => by simpa using lowerLaneStore_tiled h hl) (h.write rfl rfl) hlow
    simpa [TensorWasmOp.loads, TensorWasmOp.stores] using hlanes
  | barrier =>
    cases hlow
    simpa [TensorWasmOp.loads, TensorWasmOp.stores] using h.write rfl rfl

theorem lowerOps_tiled {ops : List TensorWasmOp} (hlow : lowerOps cfg ops s = .ok s') :
    Tiled s' (ins ++ ops.flatMap TensorWasmOp.loads) (outs ++ ops.flatMap TensorWasmOp.stores) := by
  induction ops generalizing s ins outs with
  | nil =>
    cases hlow
    simpa using h
  | cons op ops ih =>
    obtain ⟨s1, hs1, hlow⟩ := bind_eq_ok.mp hlow
    simpa using ih (lowerOp_tiled h hs1) hlow

omit h

/-! ## The emitted kernel -/

theorem lowerBody_declared {bp : TensorWasmKernelBlueprint} {l : LoweredBody}
    (hlow : lowerBody bp cfg = .ok l) {s : EmitState} (hs : lowerOps cfg bp.ops .init = .ok s) :
    l.body = s.body ∧ ∀ file, s.count file ≤ l.declared file := by
  obtain ⟨s', hs', hlow⟩ := bind_eq_ok.mp hlow
  obtain rfl := Except.ok.inj (hs.symm.trans hs')
  cases hlow
  refine ⟨rfl, fun file => ?_⟩
  cases file with
  | f | r => exact Nat.le_max_left _ _
  | rd | rb => exact Nat.le_refl _

/-- **The registers of an emitted kernel.** If no op takes a register that an op of the other class pushed, every
register is declared; if moreover every op finds its operands on the stack, every register that a line reads
was written by a line before it. The loads and the stores are those of the elements, and as wide as an element of
four bytes. -/
theorem emitted_registers_sound {bp : TensorWasmKernelBlueprint} {cfg : EmitConfig} {p : EmittedPtx}
    (h : emitWith bp cfg = .ok p) :
    ∃ k, emitModule bp cfg = .ok k ∧ p.text = k.render ∧
      (classesMatch bp = true → RegsDeclared k.lowered ∧
        (operandsSupplied bp = true → DefinedFrom [] (kernelAccesses k.lowered.body))) ∧
      Covers 0 (bp.ops.flatMap TensorWasmOp.loads) (k.lowered.body.filterMap PtxInstr.load?) ∧
      Covers 0 (bp.ops.flatMap TensorWasmOp.stores) (k.lowered.body.filterMap PtxInstr.store?) := by
  obtain ⟨k, hk, hp⟩ := bind_eq_ok.mp h
  obtain rfl := Except.ok.inj hp
  have hlow := lowered_of_emitModule hk
  obtain ⟨s, hs, -⟩ := bind_eq_ok.mp hlow
  obtain ⟨hbody, hcount⟩ := lowerBody_declared hlow hs
  have htiled : Tiled s (bp.ops.flatMap TensorWasmOp.loads) (bp.ops.flatMap TensorWasmOp.stores) :=
    lowerOps_tiled tiled_init hs
  refine ⟨k, hk, rfl, fun hmatch => ⟨?_, fun hsupplied => ?_⟩, ?_, ?_⟩
  · obtain ⟨st, hst⟩ := Option.isSome_iff_exists.mp hmatch
    have htyped := lowerOps_typed typed_init hst hs
    intro a ha reg hreg
    rw [hbody] at ha
    exact Nat.lt_of_lt_of_le (htyped.bounded a ha reg hreg) (hcount _)
  · obtain ⟨st, hst⟩ := Option.isSome_iff_exists.mp hsupplied
    rw [hbody]
    exact (lowerOps_typed typed_init hst hs).defined rfl
  · rw [hbody]
    exact htiled.loads
  · rw [hbody]
    exact htiled.stores

/-- A blueprint of these ops. -/
def kernelOf (ops : List TensorWasmOp) : TensorWasmKernelBlueprint :=
  { TensorWasmKernelBlueprint.new "kernel" with ops := ops }

/-- Two loads, an addition and a store. -/
def addLanes : TensorWasmKernelBlueprint :=
  kernelOf [.loadUnified .f32 4, .loadUnified .f32 4, .vecAdd .f32 4, .storeUnified .f32 4]

theorem emitted_registers_sound_addLanes :
    (∃ p, emitWith addLanes .default = .ok p) ∧ classesMatch addLanes = true ∧ operandsSupplied addLanes = true ∧
      ∃ k, emitModule addLanes .default = .ok k ∧ RegsDeclared k.lowered ∧
        DefinedFrom [] (kernelAccesses k.lowered.body) := by
  have hmatch : classesMatch addLanes = true := by decide
  have hsupplied : operandsSupplied addLanes = true := by decide
  obtain ⟨k, hk, -, hregs, -⟩ := emitted_registers_sound (rfl : emitWith addLanes .default = .ok _)
  exact ⟨⟨_, rfl⟩, hmatch, hsupplied, k, hk, (hregs hmatch).1, (hregs hmatch).2 hsupplied⟩

/-- An addition on an empty stack reads two registers that nothing wrote; a float store of an integer lane reads a
register that is not even declared; and a load of an eight-byte element moves four bytes. -/
theorem emitted_registers_unsound :
    (∃ k, emitModule (kernelOf [.vecAdd .f32 1]) .default = .ok k ∧
      ¬ DefinedFrom [] (kernelAccesses k.lowered.body)) ∧
    (∃ k, emitModule (kernelOf [.loadUnified .i32 2, .storeUnified .f32 1]) .default = .ok k ∧
      ¬ RegsDeclared k.lowered ∧ ¬ DefinedFrom [] (kernelAccesses k.lowered.body)) ∧
    ∃ k, emitModule (kernelOf [.loadUnified .f64 1]) .default = .ok k ∧
      k.lowered.body.filterMap PtxInstr.load? = [(.f32, 0)] ∧ LdStType.f32.width ≠ ElemType.f64.byteWidth := by
  refine ⟨⟨_, rfl, by decide⟩, ⟨_, rfl, ?_, by decide⟩, ⟨_, rfl, by decide, by decide⟩⟩
  intro h
  have hreg := h ⟨[(.rd, 1), (.f, 2)], []⟩ (by decide) (.f, 2) (by decide)
  exact absurd hreg (by decide)

end TensorWasm.Jit
