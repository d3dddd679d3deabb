import TensorWasm.Proof.Abi
import TensorWasm.Proof.TrampolineTyping

/-!
# What a trampoline does to memory and to the host

Every load and store of a trampoline has a slot of its own in the scratch region. A run allocates the region,
stores into it, dispatches, and then frees it once, on the trap path and on the path that loads the results.
-/

namespace TensorWasm.Jit

open Exec Lib Wasm List

/-! ## Slots -/

/-- The offset and width of a load or store. -/
def accessSlot : Operator → Option (Nat × Nat)
  | .load t arg | .store t arg => some (arg.offset.toNat, t.width)
  | _ => none

/-- The slots that a body accesses. -/
def slots (ops : List Operator) : List (Nat × Nat) := ops.filterMap accessSlot

/-- Slots one behind the other, each naturally aligned, inside a region. -/
structure SlotsFit (size : Nat) (slots : List (Nat × Nat)) : Prop where
  apart : slots.Pairwise fun a b => a.1 + a.2 ≤ b.1
  aligned : ∀ slot ∈ slots, slot.2 ∣ slot.1
  inside : ∀ slot ∈ slots, slot.1 + slot.2 ≤ size

theorem slots_append (ops ops' : List Operator) : slots (ops ++ ops') = slots ops ++ slots ops' :=
  filterMap_append

theorem alignedAdvance_dvd {off r : Nat} {t : NumType} (h : alignedAdvance off (.num t) = .ok r) : t.width ∣ r := by
  obtain ⟨align, halign, h⟩ := bind_eq_ok.mp h
  cases halign
  obtain ⟨summed, -, h⟩ := bind_eq_ok.mp h
  cases h
  rw [size_eq_width]
  exact Nat.dvd_mul_left _ _

variable {ts : List NumType} {off stop : Nat}

theorem packOffsets_aligned {offs : List Nat} (h : packOffsets (ts.map .num) off = .ok (offs, stop)) :
    List.Forall₂ (fun t o => t.width ∣ o) ts offs := by
  induction ts generalizing off offs with
  | nil =>
    cases h
    exact .nil
  | cons t ts ih =>
    obtain ⟨aligned, haligned, h⟩ := bind_eq_ok.mp h
    obtain ⟨size, -, h⟩ := bind_eq_ok.mp h
    obtain ⟨next, -, h⟩ := bind_eq_ok.mp h
    obtain ⟨⟨offs', stop'⟩, hrest, h⟩ := bind_eq_ok.mp h
    cases h
    exact .cons (alignedAdvance_dvd haligned) (ih hrest)

theorem packLayout_aligned {layout : PackedLayout} (h : packLayout (ts.map .num) = .ok layout) :
    List.Forall₂ (fun t o => t.width ∣ o) ts layout.offsets := by
  obtain ⟨⟨offs, stop⟩, hoffs, h⟩ := bind_eq_ok.mp h
  obtain ⟨padded, -, h⟩ := bind_eq_ok.mp h
  cases h
  exact packOffsets_aligned hoffs

variable {os : List Nat}

theorem Packed.slots_within (h : Packed off ts os stop) (base : Nat) :
    ∀ slot ∈ packedSlots base ts os, base + off ≤ slot.1 ∧ slot.1 + slot.2 ≤ base + stop := by
  induction h using Packed.induction with
  | nil => exact nofun
  | @cons off t ts o os hle hrest ih =>
    have hend := hrest.le_stop
    intro slot hslot
    rcases mem_cons.mp hslot with rfl | hslot
    · show base + off ≤ base + o ∧ base + o + t.width ≤ base + stop
      omega
    · have := ih slot hslot
      omega

theorem Packed.slots_apart (h : Packed off ts os stop) (base : Nat) :
    (packedSlots base ts os).Pairwise fun a b => a.1 + a.2 ≤ b.1 := by
  induction h using Packed.induction with
  | nil => exact .nil
  | @cons off t ts o os hle hrest ih =>
    refine .cons (fun slot hslot => ?_) ih
    have := (hrest.slots_within base slot hslot).1
    show base + o + t.width ≤ slot.1
    omega

theorem packedSlots_aligned {base : Nat} (hbase : 8 ∣ base) (h : List.Forall₂ (fun t o => t.width ∣ o) ts os) :
    ∀ slot ∈ packedSlots base ts os, slot.2 ∣ slot.1 := by
  induction h with
  | nil => exact fun slot hslot => nomatch hslot
  | @cons t o ts os ht _ ih =>
    intro slot hslot
    rcases mem_cons.mp hslot with rfl | hslot
    · have hwidth : t.width ∣ 8 := by cases t <;> decide
      exact Nat.dvd_add (hwidth.trans hbase) ht
    · exact ih slot hslot

theorem slots_storeArgs (scratchLocal : UInt32) (i : Nat) (h : Packed off ts os stop) (hstop : stop < 2 ^ 64) :
    slots (storeArgs scratchLocal i (ts.map .num) os) = packedSlots 0 ts os := by
  induction h using Packed.induction generalizing i with
  | nil => rfl
  | @cons off t ts o os hle hrest ih =>
    have hend := hrest.le_stop
    have hnat : (UInt64.ofNat o).toNat = o := UInt64.toNat_ofNat_of_lt' (show o < 2 ^ 64 by omega)
    have hslot : slots (storeArg scratchLocal i (.num t) o) = [((UInt64.ofNat o).toNat, t.width)] := rfl
    rw [map_cons, storeArgs, slots_append, ih (i + 1), hslot, hnat]
    simp [packedSlots]

theorem slots_loadResults (scratchLocal : UInt32) (base : Nat) (h : Packed off ts os stop)
    (hstop : base + stop < 2 ^ 64) :
    slots (loadResults scratchLocal base (ts.map .num) os) = packedSlots base ts os := by
  induction h using Packed.induction with
  | nil => rfl
  | @cons off t ts o os hle hrest ih =>
    have hend := hrest.le_stop
    have hnat : (UInt64.ofNat (base + o)).toNat = base + o :=
      UInt64.toNat_ofNat_of_lt' (show base + o < 2 ^ 64 by omega)
    have hslot : slots (loadResult scratchLocal (.num t) (base + o)) =
        [((UInt64.ofNat (base + o)).toNat, t.width)] := rfl
    rw [map_cons, loadResults, slots_append, ih, hslot, hnat]
    rfl

variable {argL resL : PackedLayout} {rs : List NumType}

/-- The slots of a trampoline lie in its region, the arguments' before the results'. -/
theorem slotsFit_trampoline (fp : UInt64) (host : DispatchImports) {ps : List NumType}
    (hargs : packLayout (ps.map .num) = .ok argL) (hresults : packLayout (rs.map .num) = .ok resL)
    (hsize : argL.totalBytes + resL.totalBytes < 2 ^ 31) :
    slots (trampolineOps fp host (ps.map .num) (rs.map .num) argL resL) =
        packedSlots 0 ps argL.offsets ++ packedSlots argL.totalBytes rs resL.offsets ∧
      SlotsFit (argL.totalBytes + resL.totalBytes)
        (packedSlots 0 ps argL.offsets ++ packedSlots argL.totalBytes rs resL.offsets) := by
  obtain ⟨hdvd, stopA, hstopA, hpackedA⟩ := packLayout_eq_ok hargs
  obtain ⟨-, stopR, hstopR, hpackedR⟩ := packLayout_eq_ok hresults
  constructor
  · have hstores := slots_storeArgs (UInt32.ofNat (ps.map ValType.num).length) 0 hpackedA (by omega)
    have hloads := slots_loadResults (UInt32.ofNat (ps.map ValType.num).length) argL.totalBytes hpackedR
      (by omega)
    simp only [trampolineOps, slots_append, hstores, hloads]
    show [] ++ packedSlots 0 ps argL.offsets ++ [] ++ [] ++ packedSlots argL.totalBytes rs resL.offsets ++ [] = _
    simp only [nil_append, append_nil]
  · refine ⟨pairwise_append.mpr ⟨hpackedA.slots_apart 0, hpackedR.slots_apart _, ?_⟩, ?_, ?_⟩
    · intro a ha b hb
      have ha' := (hpackedA.slots_within 0 a ha).2
      have hb' := (hpackedR.slots_within _ b hb).1
      omega
    · intro slot hslot
      rcases mem_append.mp hslot with hslot | hslot
      · exact packedSlots_aligned (Nat.dvd_zero 8) (packLayout_aligned hargs) slot hslot
      · exact packedSlots_aligned hdvd (packLayout_aligned hresults) slot hslot
    · intro slot hslot
      rcases mem_append.mp hslot with hslot | hslot
      · have := (hpackedA.slots_within 0 slot hslot).2
        omega
      · have := (hpackedR.slots_within _ slot hslot).2
        omega

/-! ## Events -/

/-- What the imports answer: `alloc` an address, `dispatch` a code, which is zero only if the region is inside the
memory it leaves, and `free` nothing. -/
structure Serves {H : Type} (imports : ImportCall H) (host : DispatchImports) : Prop where
  alloc : ∀ size operands memory h, ∃ ptr memory' h',
    imports host.alloc (.i32 size :: operands) memory h = some (.i32 ptr :: operands, memory', h')
  dispatch : ∀ rlen alen scratch hi lo operands memory h, ∃ rc memory' h',
    imports host.dispatch (.i32 rlen :: .i32 alen :: .i32 scratch :: .i64 hi :: .i64 lo :: operands) memory h =
        some (.i32 rc :: operands, memory', h') ∧
      (rc = 0 → scratch.toNat + alen.toNat + rlen.toNat ≤ memory'.len)
  free : ∀ size ptr operands memory h, ∃ memory' h',
    imports host.free (.i32 size :: .i32 ptr :: operands) memory h = some (operands, memory', h')

/-! ## Whole runs -/

/-- A run of a trampoline, as its host sees it, where `memory` is what `alloc` leaves and the region holds `alen`
bytes of arguments and `rlen` of results. It allocates the region; its stores go to slots of the region, up to one
that is not inside the memory; if there is none it gets to the dispatch, which it gives the fingerprint in two
halves and both sizes, its loads go to slots of the region, and the last thing it does is to free the region, with
its size. -/
def Disciplined (host : DispatchImports) (fp : UInt64) (alen rlen : Nat) (memory : Memory) (scratch : UInt32)
    (slots : List (Nat × Nat)) (events : List Event) : Prop :=
  ∃ stores, (∀ e ∈ stores, OnSlot scratch slots e) ∧
    (events = .call host.alloc [.i32 (.ofNat (alen + rlen))] :: stores ∧ EndsOutside memory stores ∨
      ∃ (loads : List Event) (lo hi : UInt64) (results : List Value),
        (∀ e ∈ loads, OnSlot scratch slots e) ∧ joinFingerprint lo.toInt64 hi.toInt64 = fp ∧
          events = .call host.alloc [.i32 (.ofNat (alen + rlen))] :: (stores ++
            .call host.dispatch [.i32 (.ofNat rlen), .i32 (.ofNat alen), .i32 scratch, .i64 hi, .i64 lo] ::
              (loads ++ [.call host.free (.i32 (.ofNat (alen + rlen)) :: .i32 scratch :: results)])))

variable {host : DispatchImports}

/-- After the dispatch: the loads of the results if its code is zero, and then one `free`. -/
theorem Serves.trace_after_dispatch {H : Type} {imports : ImportCall H} (hs : Serves imports host) {args : List Value}
    (hlen : args.length + 1 < 2 ^ 32) {stop : Nat} (hpacked : Packed 0 rs resL.offsets stop)
    (hstop : argL.totalBytes + stop < 2 ^ 64) {rc scratch size : UInt32}
    (hsize : UInt32.ofNat (argL.totalBytes + resL.totalBytes) = size) {memory : Memory}
    (hfits : rc = 0 → scratch.toNat + argL.totalBytes + stop ≤ memory.len) (h : H) :
    ∃ loads results, (∀ e ∈ loads, OnSlot scratch (packedSlots argL.totalBytes rs resL.offsets) e) ∧
      Wasm.trace imports 0
          (checkOps host (UInt32.ofNat args.length + 1) (UInt32.ofNat args.length) size ++
            resultOps host args rs argL resL)
          ⟨[.i32 rc], args ++ [.i32 scratch, .i32 0], memory, h⟩ =
        loads ++ [.call host.free (.i32 size :: .i32 scratch :: results)] := by
  have hget : ∀ w : Value, (args ++ [.i32 scratch, w])[(UInt32.ofNat args.length).toNat]? = some (.i32 scratch) := by
    intro w
    rw [scratch_index hlen]
    exact get_scratch _ _
  by_cases hrc : rc = 0
  · subst hrc
    have hskip : Passes imports (checkOps host (UInt32.ofNat args.length + 1) (UInt32.ofNat args.length) size)
        ⟨[.i32 0], args ++ [.i32 scratch, .i32 0], memory, h⟩ _ _ := passes_skip
    rw [rc_index hlen, set_rc] at hskip
    obtain ⟨loads, hevents, hloads⟩ := passes_loadResults imports
      (m := ⟨[], args ++ [.i32 scratch, .i32 0], memory, h⟩) hpacked (hget _) hstop (hfits rfl)
    generalize hread : readResults memory (scratch.toNat + argL.totalBytes) rs resL.offsets = results
      at hloads
    obtain ⟨memory', h', hcall⟩ := hs.free size scratch (results.reverse ++ []) memory h
    refine ⟨loads, results.reverse ++ [], hevents, ?_⟩
    have hsplit : resultOps host args rs argL resL =
        loadResults (UInt32.ofNat args.length) argL.totalBytes (rs.map .num) resL.offsets ++
          ([.localGet (UInt32.ofNat args.length), .i32Const size, .call host.free] ++ [.end_]) := by
      rw [← hsize]
      rfl
    rw [hsplit, hskip.trace_append, nil_append, hloads.trace_append,
      (passes_free (hget _) hcall).trace_append, trace_single]
    rfl
  · obtain ⟨memory', h', hcall⟩ := hs.free size scratch [] memory h
    refine ⟨[], [], nofun, (check_trap hrc ?_ hcall _).2⟩
    rw [rc_index hlen, set_rc]
    exact hget _

/-- Any run, on any host that serves the three imports. -/
theorem Serves.disciplined {H : Type} {imports : ImportCall H} (hs : Serves imports host) (fp : UInt64)
    {args : List Value} (hargs : packLayout ((args.map Value.type).map .num) = .ok argL)
    (hresults : packLayout (rs.map .num) = .ok resL)
    (hsize : argL.totalBytes + resL.totalBytes < 2 ^ 31) (memory : Memory) (h : H) :
    ∃ scratch memory' h',
      imports host.alloc [.i32 (UInt32.ofNat (argL.totalBytes + resL.totalBytes))] memory h =
          some ([.i32 scratch], memory', h') ∧
        Disciplined host fp argL.totalBytes resL.totalBytes memory' scratch
          (packedSlots 0 (args.map Value.type) argL.offsets ++ packedSlots argL.totalBytes rs resL.offsets)
          ((trampolineBody fp host args rs argL resL).trace imports args memory h) := by
  obtain ⟨-, stopA, hstopA, hpackedA⟩ := packLayout_eq_ok hargs
  obtain ⟨-, stopR, hstopR, hpackedR⟩ := packLayout_eq_ok hresults
  have hlen : args.length + 1 < 2 ^ 32 := by
    have := hpackedA.le_stop
    rw [length_map] at this
    omega
  unfold Disciplined
  generalize hsizeEq : UInt32.ofNat (argL.totalBytes + resL.totalBytes) = size
  obtain ⟨scratch, memory1, h1, hcall⟩ := hs.alloc size [] memory h
  have halloc := passes_alloc (args ++ [.i32 0, .i32 0]) (UInt32.ofNat args.length) hcall
  rw [scratch_index hlen, set_scratch] at halloc
  have hget : ∀ w : Value, (args ++ [.i32 scratch, w])[(UInt32.ofNat args.length).toNat]? = some (.i32 scratch) := by
    intro w
    rw [scratch_index hlen]
    exact get_scratch _ _
  obtain ⟨hstores, hdone⟩ := storeArgs_runs imports (m := ⟨[], args ++ [.i32 scratch, .i32 0], memory1, h1⟩) hpackedA
    (hget _) (get_arg _ _) (by omega) (by omega)
  refine ⟨scratch, memory1, h1, hcall, _, fun e he => (hstores e he).mono (subset_append_left _ _), ?_⟩
  have htrace : (trampolineBody fp host args rs argL resL).trace imports args memory h =
      Wasm.trace imports 0 (trampolineBody fp host args rs argL resL).ops
        ⟨[], args ++ [.i32 0, .i32 0], memory, h⟩ := rfl
  rw [trampolineBody_ops, dispatchOps, hsizeEq, append_assoc, halloc.trace_append, append_assoc] at htrace
  rcases hdone with hsteps | ⟨herror, -, houtside⟩
  · obtain ⟨rc, memory3, h3, hcall', hzero⟩ := hs.dispatch (UInt32.ofNat resL.totalBytes)
      (UInt32.ofNat argL.totalBytes) scratch (fp >>> 32) (fp &&& 0xFFFFFFFF) [] _ h1
    have hfits : rc = 0 → scratch.toNat + argL.totalBytes + stopR ≤ memory3.len := by
      intro hrc
      have := hzero hrc
      rw [UInt32.toNat_ofNat_of_lt' (show argL.totalBytes < 2 ^ 32 by omega),
        UInt32.toNat_ofNat_of_lt' (show resL.totalBytes < 2 ^ 32 by omega)] at this
      omega
    obtain ⟨loads, results, hloads, hrest⟩ := hs.trace_after_dispatch hlen hpackedR (by omega) hsizeEq hfits h3
    refine .inr ⟨loads, _, _, results, fun e he => (hloads e he).mono (subset_append_right _ _),
      joinFingerprint_halves fp, ?_⟩
    rw [htrace, Wasm.trace_append, hsteps]
    dsimp only
    rw [(passes_dispatch (hget _) hcall').trace_append, hrest]
    rfl
  · refine .inl ⟨?_, houtside⟩
    rw [htrace, Wasm.trace_append, herror, append_nil]
    rfl

/-! ## The host of the repository -/

/-- A code of zero means that the region is inside the memory. -/
theorem dispatch_ok_fits {env : DispatchEnv} {lo hi : Int64} {scratch alen rlen : Int32} {memory : Memory}
    {memory' : Option Memory} (h : dispatch env lo hi scratch alen rlen (some memory) = (memory', dispatchOk)) :
    scratch.toUInt32.toNat + alen.toUInt32.toNat + rlen.toUInt32.toNat ≤ (memory'.getD memory).len := by
  have hmiss : dispatchCacheMiss ≠ dispatchOk := by decide
  have hbad : dispatchBadScratch ≠ dispatchOk := by decide
  simp only [dispatch] at h
  split at h
  · exact absurd (Prod.mk.inj h).2 hmiss
  · split at h
    · exact absurd (Prod.mk.inj h).2 hbad
    · split at h
      · exact absurd (Prod.mk.inj h).2 hbad
      · rename_i stop hstop
        have hsum : stop = scratch.toUInt32.toNat + alen.toUInt32.toNat + rlen.toUInt32.toNat := by
          obtain ⟨mid, hmid, hend⟩ := Option.bind_eq_some_iff.mp hstop
          unfold checkedAddUsize at hmid hend
          split at hmid
          · cases hmid
            split at hend
            · exact (Option.some.inj hend).symm
            · cases hend
          · cases hmid
        split at h
        · exact absurd (Prod.mk.inj h).2 hbad
        · rename_i hle
          split at h
          · obtain ⟨rfl, -⟩ := Prod.mk.inj h
            show _ ≤ memory.len
            omega
          · exact absurd (Prod.mk.inj h).2 hmiss

theorem serves_hostImports (env : DispatchEnv) (hd : Distinct host) : Serves (hostImports env host) host where
  alloc size operands memory store := ⟨_, _, _, hostImports_alloc env rfl⟩
  dispatch rlen alen scratch hi lo operands memory store := by
    cases hdispatch : dispatch env lo.toInt64 hi.toInt64 scratch.toInt32 alen.toInt32 rlen.toInt32 (some memory) with
    | mk memory' ret =>
      refine ⟨_, _, _, hostImports_dispatch env hd hdispatch, fun hrc => ?_⟩
      obtain rfl : ret = dispatchOk := congrArg Int32.ofUInt32 hrc
      simpa only [UInt32.toUInt32_toInt32] using dispatch_ok_fits hdispatch
  free size ptr operands memory store := ⟨_, _, hostImports_free env hd⟩

/-- **A trampoline is well typed and keeps to its region.** Its body has the signature it was built for; its loads and
stores have slots of their own in a region of the size it asks for, which is that of its two layouts; and every
run of it on the host is disciplined. -/
theorem trampoline_disciplined {fp : UInt64} {host : DispatchImports} {params results : List ValType}
    {body : FuncBody} (h : buildTrampoline fp host params results = .ok body) (hd : Distinct host) :
    ∃ argL resL : PackedLayout, packLayout params = .ok argL ∧ packLayout results = .ok resL ∧
      argL.totalBytes + resL.totalBytes < 2 ^ 31 ∧
      (∀ ctx, Links ctx host → body.validates ctx ⟨params, results⟩ = true) ∧
      (slots body.ops).length = params.length + results.length ∧
      SlotsFit (argL.totalBytes + resL.totalBytes) (slots body.ops) ∧
      ∀ (env : DispatchEnv) (args : List Value) (memory : Memory) (store : Store),
        (args.map fun v => ValType.num v.type) = params →
          ∃ scratch memory' store',
            hostImports env host host.alloc [.i32 (.ofNat (argL.totalBytes + resL.totalBytes))] memory store =
                some ([.i32 scratch], memory', store') ∧
              Disciplined host fp argL.totalBytes resL.totalBytes memory' scratch (slots body.ops)
                (body.trace (hostImports env host) args memory store) := by
  have hvalid : ∀ ctx, Links ctx host → body.validates ctx ⟨params, results⟩ = true :=
    fun ctx hlinks => trampoline_validates h hlinks
  obtain ⟨ps, rs, argL, resL, rfl, rfl, hargs, hresults, hsize, rfl⟩ := exists_layouts h
  obtain ⟨hslots, hfit⟩ := slotsFit_trampoline fp host hargs hresults hsize
  refine ⟨argL, resL, hargs, hresults, hsize, hvalid, ?_, ?_, ?_⟩
  · rw [hslots, length_append, packedSlots, packedSlots, length_zipWith, length_zipWith,
      length_map, length_map, ← (packLayout_aligned hargs).length_eq,
      ← (packLayout_aligned hresults).length_eq, Nat.min_self, Nat.min_self]
  · rw [hslots]
    exact hfit
  · intro env args memory store htypes
    have hps : args.map Value.type = ps := by
      refine map_injective_iff.mpr (fun a b hab => ValType.num.inj hab) ?_
      rw [map_map]
      exact htypes
    subst hps
    rw [hslots]
    have hrun := (serves_hostImports env hd).disciplined fp hargs hresults hsize memory store
    simpa only [trampolineBody, map_map, Function.comp_def] using hrun

/-- A host whose functions have the indices 0, 1 and 2, and a context in which they have their types. -/
def firstThree : DispatchImports := ⟨0, 1, 2⟩

def firstThreeContext : FuncContext := ⟨fun f => (RewriterEnv.importTypes[f.toNat]?).join, true⟩

/-- A run with two arguments and a result: `alloc`, two stores, `dispatch`, a load and `free`. -/
theorem trampoline_disciplined_mixed :
    ∃ body, buildTrampoline 0xDEADBEEF12345678 firstThree [.num .i32, .num .i64] [.num .f64] = .ok body ∧
      Distinct firstThree ∧ body.validates firstThreeContext ⟨[.num .i32, .num .i64], [.num .f64]⟩ = true ∧
      SlotsFit 24 (slots body.ops) ∧
      (body.trace (hostImports addEnv firstThree) [.i32 7, .i64 9] (.ofPages 2) ⟨ArenaState.default, []⟩).length = 6 ∧
      ∃ scratch memory', Disciplined firstThree 0xDEADBEEF12345678 16 8 memory' scratch (slots body.ops)
        (body.trace (hostImports addEnv firstThree) [.i32 7, .i64 9] (.ofPages 2) ⟨ArenaState.default, []⟩) := by
  have hd : Distinct firstThree := ⟨by decide, by decide, by decide⟩
  obtain ⟨argL, resL, hargs, hresults, -, hvalid, -, hfit, hrun⟩ := trampoline_disciplined
    (rfl : buildTrampoline 0xDEADBEEF12345678 firstThree [.num .i32, .num .i64] [.num .f64] = .ok _) hd
  cases hargs
  cases hresults
  obtain ⟨scratch, memory', store', -, hdisciplined⟩ := hrun addEnv [.i32 7, .i64 9] (.ofPages 2)
    ⟨ArenaState.default, []⟩ rfl
  exact ⟨_, rfl, hd, hvalid firstThreeContext ⟨rfl, rfl⟩, hfit, rfl, scratch, memory', hdisciplined⟩

end TensorWasm.Jit
