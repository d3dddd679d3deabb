import TensorWasm.Proof.Arena
import TensorWasm.Proof.TrampolineRun

/-!
# The trampoline and the host

The trampoline, the packer and the three host functions composed. A call through a trampoline is
right exactly when its slot is a positive `i32`: an empty signature asks for zero bytes and is
refused, a slot at or above 2 GiB reaches `dispatch` as a negative number, and a slot at address 0
is never freed.
-/

namespace TensorWasm.Jit

open Exec Lib Wasm
open UInt32 (toNat_add toNat_ofNat_of_lt' toUInt32_toInt32)
open Memory (ofPages)

/-! ## The host functions on a memory of at least one page -/

/-- The arena as the next `alloc` sees it: seeded, if it is not yet. -/
def seededArena (a : ArenaState) (mem : Memory) : ArenaState :=
  match a.bumpCursor with
  | some _ => a
  | none => { a with arenaFloor := saturatingSub (clampU32 mem.len) scratchArenaBytes,
                     bumpCursor := some (clampU32 mem.len) }

/-- The cursor the next `alloc` starts from. -/
def seededCursor (a : ArenaState) (mem : Memory) : Nat :=
  ((seededArena a mem).bumpCursor.getD 0).toNat

/-- The bytes the next `alloc` can hand out. -/
def arenaFree (a : ArenaState) (mem : Memory) : Nat :=
  seededCursor a mem - (seededArena a mem).arenaFloor.toNat

variable {mem : Memory}

/-- A page is enough for the arena, so seeding does not grow the memory. -/
theorem growForArena_of_page (h : pageSize ≤ mem.len) (growOk : Bool) : growForArena growOk mem = some mem := by
  unfold growForArena
  dsimp only
  rw [if_neg]
  exact Nat.not_lt.mpr h

variable {a : ArenaState}

/-- What `ArenaOk` gives of the seeded arena. -/
theorem exists_seeded (h : ArenaOk ⟨a, some mem⟩) (hpage : pageSize ≤ mem.len) (growOk : Bool) :
    ∃ c : UInt32, seedCursor growOk a mem = some (seededArena a mem, mem, c) ∧
      seededCursor a mem = c.toNat ∧ (seededArena a mem).bumpCursor = some c ∧ c.toNat ≤ mem.len := by
  cases hc : a.bumpCursor with
  | some c =>
    refine ⟨c, ?_, ?_, ?_, ?_⟩
    · simp only [seedCursor, seededArena, hc]
    · simp only [seededCursor, seededArena, hc, Option.getD_some]
    · simp only [seededArena, hc]
    · rcases h with ⟨hnone, -⟩ | ⟨top, memory, hlayout, hmem, hle⟩
      · exact absurd (hc.symm.trans hnone) (by simp)
      · obtain ⟨c', hc', hstack, -⟩ := hlayout.stacked
        obtain rfl := Option.mem_unique hc hc'
        cases hmem
        exact Nat.le_trans hstack.cursor_le hle
  | none =>
    refine ⟨clampU32 mem.len, ?_, ?_, ?_, toNat_clampU32_le _⟩
    · simp only [seedCursor, seededArena, hc, growForArena_of_page hpage growOk]
    · simp only [seededCursor, seededArena, hc, Option.getD_some]
    · simp only [seededArena, hc]

/-- **`alloc` of what fits**: the slot just below the cursor. -/
theorem alloc_fits (h : ArenaOk ⟨a, some mem⟩) (hpage : pageSize ≤ mem.len) {size : Nat}
    (hpos : 0 < size) (hmax : size < 2 ^ 31) (height : 8 ∣ size) (hfits : size ≤ arenaFree a mem) (growOk : Bool) :
    ∃ ptr : UInt32, ptr.toNat = seededCursor a mem - size ∧
      Exec.alloc (UInt32.ofNat size).toInt32 growOk ⟨a, some mem⟩ =
        (⟨{ seededArena a mem with
              bumpCursor := some ptr
              live := (ptr, UInt32.ofNat size) :: (seededArena a mem).live }, some mem⟩,
          ptr.toInt32) := by
  obtain ⟨c, hseed, hcursor, -, -⟩ := exists_seeded h hpage growOk
  have hnat : (UInt32.ofNat size).toNat = size :=
    toNat_ofNat_of_lt' (by rw [UInt32.size]; omega)
  have hsize : ¬ (UInt32.ofNat size).toInt32 ≤ 0 := by
    rw [int32_le_zero_iff, toUInt32_toInt32, hnat]
    omega
  obtain ⟨haligned, -, -⟩ := toNat_alignedSize hsize
  -- the packed size is a multiple of eight already
  have hsame : alignedSize (UInt32.ofNat size) = UInt32.ofNat size := by
    apply UInt32.toNat_inj.mp
    rw [toUInt32_toInt32, hnat] at haligned
    rw [haligned, hnat]
    omega
  unfold arenaFree at hfits
  rw [hcursor] at hfits
  have hle : (UInt32.ofNat size).toNat ≤ c.toNat := by omega
  have hptr : (c - UInt32.ofNat size).toNat = c.toNat - size := by
    rw [UInt32.toNat_sub_of_le _ _ (UInt32.le_iff_toNat_le.mpr hle), hnat]
  refine ⟨c - UInt32.ofNat size, by rw [hptr, hcursor], ?_⟩
  have hfloor : ¬ c - UInt32.ofNat size < (seededArena a mem).arenaFloor := by
    rw [UInt32.lt_iff_toNat_lt, hptr]
    omega
  simp only [Exec.alloc, if_neg hsize, hseed, toUInt32_toInt32, hsame, checkedSub_of_le hle, if_neg hfloor]

theorem alloc_nothing (growOk : Bool) (s : HostState) : Exec.alloc 0 growOk s = (s, -1) := rfl

/-- The two halves of a fingerprint come back together. -/
theorem joinFingerprint_halves (fp : UInt64) :
    joinFingerprint (fp &&& 0xFFFFFFFF).toInt64 (fp >>> 32).toInt64 = fp := by
  apply UInt64.toBitVec_inj.mp
  apply BitVec.eq_of_getLsbD_eq
  intro i hi
  unfold joinFingerprint
  interval_cases i <;> simp

section Dispatch

variable {env : DispatchEnv} {kernel : CachedKernel} {fp : UInt64}
  (hcache : env.cache (CacheKey.forTenant env.tenantId fp env.smVersion) = some kernel)

include hcache

/-- A scratch address with the sign bit set is refused. -/
theorem dispatch_negative {scratch alen rlen : Int32} (hneg : scratch < 0) (mem : Memory) :
    dispatch env (fp &&& 0xFFFFFFFF).toInt64 (fp >>> 32).toInt64 scratch alen rlen (some mem) =
      (some mem, dispatchBadScratch) := by
  simp only [dispatch, joinFingerprint_halves, hcache, hneg, true_or, if_true]

/-- A region inside memory is handed to the launch. -/
theorem dispatch_launch {scratch alen rlen : Nat} {contents : Nat → UInt8} (hs : scratch < 2 ^ 31)
    (ha : alen < 2 ^ 31) (hr : rlen < 2 ^ 31) (hfits : scratch + alen + rlen ≤ mem.len)
    (hlaunch : env.launch kernel mem scratch alen rlen = some contents) :
    dispatch env (fp &&& 0xFFFFFFFF).toInt64 (fp >>> 32).toInt64 (UInt32.ofNat scratch).toInt32
        (UInt32.ofNat alen).toInt32 (UInt32.ofNat rlen).toInt32 (some mem) =
      (some ⟨mem.len, contents⟩, dispatchOk) := by
  have hnat : ∀ n, n < 2 ^ 31 → (UInt32.ofNat n).toNat = n := fun n hn =>
    toNat_ofNat_of_lt' (by rw [UInt32.size]; omega)
  have hpos : ∀ n, n < 2 ^ 31 → ¬ (UInt32.ofNat n).toInt32 < 0 := by
    intro n hn
    rw [int32_lt_zero_iff, toUInt32_toInt32, hnat n hn]
    omega
  have hsum : (checkedAddUsize scratch alen).bind (checkedAddUsize · rlen) = some (scratch + alen + rlen) := by
    simp only [checkedAddUsize, if_pos (show scratch + alen < 2 ^ 64 by omega), Option.bind_some,
      if_pos (show scratch + alen + rlen < 2 ^ 64 by omega)]
  simp only [dispatch, joinFingerprint_halves, hcache, hpos _ hs, hpos _ ha, hpos _ hr, or_self,
    if_false, toUInt32_toInt32, hnat _ hs, hnat _ ha, hnat _ hr, hsum, if_neg (Nat.not_lt.mpr hfits), hlaunch]

end Dispatch

/-! ## The whole body -/

theorem distinct_imports (n : UInt32) : Distinct ⟨n, n + 1, n + 2⟩ := by
  have hne : ∀ k : UInt32, k.toNat ≠ 0 → n + k ≠ n := by
    intro k hk heq
    have hnat := congrArg UInt32.toNat heq
    have hn := n.toNat_lt
    have hk' := k.toNat_lt
    rw [toNat_add] at hnat
    omega
  refine ⟨(hne 1 (by decide)).symm, ?_, hne 2 (by decide)⟩
  intro heq
  have heq' : n + 1 + 1 = n + 1 := by
    rw [UInt32.add_assoc]
    exact heq
  have hnat := congrArg UInt32.toNat heq'
  have hn := (n + 1).toNat_lt
  rw [toNat_add, show (1 : UInt32).toNat = 1 from rfl] at hnat
  omega

section Locals

variable {args : List Value} (x y v : Value)

theorem get_arg (j : Nat) (w : Value) (h : args[j]? = some w) : (args ++ [x, y])[0 + j]? = some w := by
  rw [Nat.zero_add, List.getElem?_append_left (List.getElem?_eq_some_iff.mp h).1, h]

theorem get_scratch : (args ++ [x, y])[args.length]? = some x := by simp

theorem set_scratch : (args ++ [x, y]).set args.length v = args ++ [v, y] := by simp

theorem set_rc : (args ++ [x, y]).set (args.length + 1) v = args ++ [x, v] := by
  rw [List.set_append_right _ _ (by omega)]
  simp

end Locals

section Invoke

variable {env : DispatchEnv} {host : DispatchImports} (hd : Distinct host) {fp : UInt64}
  {results : List NumType} {argL resL : PackedLayout} {args : List Value}
  {mem seen mem' : Memory} {arena arena' : ArenaState} {base : UInt32} {rc : Int32}

/-- The body of a trampoline for the types of `args`. -/
def trampolineBody (fp : UInt64) (host : DispatchImports) (args : List Value)
    (results : List NumType) (argL resL : PackedLayout) : FuncBody :=
  { locals := [(2, .num .i32)],
    ops := trampolineOps fp host (args.map fun v => .num v.type) (results.map .num) argL resL }

/-- From the allocation to the dispatch call. -/
def dispatchOps (fp : UInt64) (host : DispatchImports) (args : List Value)
    (argL resL : PackedLayout) : List Operator :=
  [.i32Const (UInt32.ofNat (argL.totalBytes + resL.totalBytes)), .call host.alloc,
    .localSet (UInt32.ofNat args.length)] ++
  (storeArgs (UInt32.ofNat args.length) 0 (args.map fun v => .num v.type) argL.offsets ++
  [.i64Const (fp &&& 0xFFFFFFFF), .i64Const (fp >>> 32), .localGet (UInt32.ofNat args.length),
    .i32Const (UInt32.ofNat argL.totalBytes), .i32Const (UInt32.ofNat resL.totalBytes), .call host.dispatch])

/-- From the first load to the end. -/
def resultOps (host : DispatchImports) (args : List Value) (results : List NumType)
    (argL resL : PackedLayout) : List Operator :=
  loadResults (UInt32.ofNat args.length) argL.totalBytes (results.map .num)
    resL.offsets ++
  [.localGet (UInt32.ofNat args.length),
    .i32Const (UInt32.ofNat (argL.totalBytes + resL.totalBytes)), .call host.free, .end_]

theorem trampolineBody_ops :
    (trampolineBody fp host args results argL resL).ops =
      dispatchOps fp host args argL resL ++
      (checkOps host (UInt32.ofNat args.length + 1) (UInt32.ofNat args.length)
        (UInt32.ofNat (argL.totalBytes + resL.totalBytes)) ++
      resultOps host args results argL resL) := by
  simp only [trampolineBody, trampolineOps, dispatchOps, resultOps, List.length_map, List.append_assoc]
  rfl

theorem invoke_of_steps {imports : ImportCall Store} {store : Store} {m : Machine Store}
    (h : Steps imports (trampolineBody fp host args results argL resL).ops
      ⟨[], args ++ [.i32 0, .i32 0], mem, store⟩ m) :
    (trampolineBody fp host args results argL resL).invoke imports args mem store =
      .ok (m.stack.reverse, m.memory, m.host) := by
  show (execOps imports 0 _ ⟨[], args ++ [.i32 0, .i32 0], mem, store⟩ >>= _) = _
  rw [h]
  rfl

variable (hlen : args.length + 1 < 2 ^ 32)
  (halloc : Exec.alloc (UInt32.ofNat (argL.totalBytes + resL.totalBytes)).toInt32
    env.growOk ⟨arena, some mem⟩ = (⟨arena', some mem⟩, base.toInt32))
  (hstore : Steps (hostImports env host)
    (storeArgs (UInt32.ofNat args.length) 0 (args.map fun v => .num v.type) argL.offsets)
    ⟨[], args ++ [.i32 base, .i32 0], mem, ⟨arena', [.alloc base.toInt32]⟩⟩
    ⟨[], args ++ [.i32 base, .i32 0], seen, ⟨arena', [.alloc base.toInt32]⟩⟩)
  (hdispatch : dispatch env (fp &&& 0xFFFFFFFF).toInt64 (fp >>> 32).toInt64 base.toInt32
    (UInt32.ofNat argL.totalBytes).toInt32 (UInt32.ofNat resL.totalBytes).toInt32
    (some seen) = (some mem', rc))

include hlen in
theorem scratch_index : (UInt32.ofNat args.length).toNat = args.length :=
  toNat_ofNat_of_lt' (by rw [UInt32.size]; omega)

include hlen in
theorem rc_index : (UInt32.ofNat args.length + 1).toNat = args.length + 1 := by
  rw [toNat_add, scratch_index hlen]
  exact Nat.mod_eq_of_lt hlen

include hd hlen halloc hstore hdispatch

theorem steps_to_dispatch :
    Steps (hostImports env host) (dispatchOps fp host args argL resL)
      ⟨[], args ++ [.i32 0, .i32 0], mem, ⟨arena, []⟩⟩
      ⟨[.i32 rc.toUInt32], args ++ [.i32 base, .i32 0], mem',
        ⟨arena', [.alloc base.toInt32, .dispatch seen rc]⟩⟩ := by
  have hfirst : Passes (hostImports env host)
      [.i32Const _, .call host.alloc, .localSet (UInt32.ofNat args.length)]
      ⟨[], args ++ [.i32 0, .i32 0], mem, ⟨arena, []⟩⟩ _ _ :=
    passes_alloc _ _ (hostImports_alloc env halloc)
  rw [scratch_index hlen, set_scratch, toUInt32_toInt32] at hfirst
  refine hfirst.steps.append (hstore.append (passes_dispatch ?_ (hostImports_dispatch env hd hdispatch)).steps)
  rw [scratch_index hlen]
  exact get_scratch _ _

/-- A nonzero code traps. -/
theorem invoke_trap (hrc : rc.toUInt32 ≠ 0) :
    (trampolineBody fp host args results argL resL).invoke (hostImports env host)
      args mem ⟨arena, []⟩ = .error .unreachable := by
  have hrun : execOps (hostImports env host) 0
      (trampolineBody fp host args results argL resL).ops
      ⟨[], args ++ [.i32 0, .i32 0], mem, ⟨arena, []⟩⟩ = .error .unreachable := by
    rw [trampolineBody_ops, execOps_append, steps_to_dispatch hd hlen halloc hstore hdispatch, ok_bind]
    refine (check_trap hrc (show _ = some (Value.i32 base) from ?_) (hostImports_free env hd) _).1
    rw [rc_index hlen, scratch_index hlen, set_rc]
    exact get_scratch _ _
  show (execOps (hostImports env host) 0 _ ⟨[], args ++ [.i32 0, .i32 0], mem, ⟨arena, []⟩⟩ >>= _) = _
  rw [hrun]
  rfl

/-- **A zero code returns what the kernel left in the results region**, and frees the slot. -/
theorem invoke_ok (hrc : rc = 0) {stop : Nat} (hresults : Packed 0 results resL.offsets stop)
    (hstop : argL.totalBytes + stop < 2 ^ 64) (hfits : base.toNat + argL.totalBytes + stop ≤ mem'.len) :
    (trampolineBody fp host args results argL resL).invoke (hostImports env host)
      args mem ⟨arena, []⟩ =
      .ok (readResults mem' (base.toNat + argL.totalBytes) results resL.offsets, mem',
        ⟨free base.toInt32
          (UInt32.ofNat (argL.totalBytes + resL.totalBytes)).toInt32 arena',
          [.alloc base.toInt32, .dispatch seen rc, .free]⟩) := by
  subst hrc
  have hget : ∀ w : Value, (args ++ [.i32 base, w])[(UInt32.ofNat args.length).toNat]? = some (.i32 base) := by
    intro w
    rw [scratch_index hlen]
    exact get_scratch _ _
  have hcheck : Passes (hostImports env host) (checkOps host (UInt32.ofNat args.length + 1) (UInt32.ofNat args.length)
      (UInt32.ofNat (argL.totalBytes + resL.totalBytes)))
      ⟨[.i32 0], args ++ [.i32 base, .i32 0], mem', ⟨arena', [.alloc base.toInt32,
        .dispatch seen 0]⟩⟩ _ _ := passes_skip
  rw [rc_index hlen, set_rc] at hcheck
  obtain ⟨_, -, hloads⟩ := passes_loadResults (hostImports env host)
    (m := ⟨[], args ++ [.i32 base, .i32 0], mem', ⟨arena', [.alloc base.toInt32, .dispatch seen 0]⟩⟩)
    hresults (hget _) hstop hfits
  have hfree : Steps (hostImports env host)
      [.localGet (UInt32.ofNat args.length),
        .i32Const (UInt32.ofNat (argL.totalBytes + resL.totalBytes)), .call host.free, .end_]
      ⟨(readResults mem' (base.toNat + argL.totalBytes) results
          resL.offsets).reverse ++ [], args ++ [.i32 base, .i32 0], mem',
        ⟨arena', [.alloc base.toInt32, .dispatch seen 0]⟩⟩ _ :=
    (passes_free (hget _) (hostImports_free env hd)).steps.append (.cons rfl (.nil _))
  have hrun := (steps_to_dispatch hd hlen halloc hstore hdispatch).append
    (hcheck.steps.append (hloads.steps.append hfree))
  rw [invoke_of_steps (trampolineBody_ops ▸ hrun)]
  simp

end Invoke

/-! ## Agreement -/

/-- The newest slot is popped when its address is a positive `i32`. -/
theorem free_newest {ptr size : UInt32} (hptr : 0 < ptr.toNat) (hptr' : ptr.toNat < 2 ^ 31)
    (hsize : 0 < size.toNat) (hsize' : size.toNat < 2 ^ 31) :
    free ptr.toInt32 size.toInt32 { a with bumpCursor := some ptr, live := (ptr, size) :: a.live } =
      { a with bumpCursor := some (ptr + size) } := by
  have hpos : ¬ (ptr.toInt32 ≤ 0 ∨ size.toInt32 ≤ 0) := by
    rw [int32_le_zero_iff, int32_le_zero_iff, toUInt32_toInt32, toUInt32_toInt32]
    omega
  simp only [free, if_neg hpos, toUInt32_toInt32, if_true]

/-- Address 0 is never freed. -/
theorem free_null {ptr size : UInt32} (hptr : ptr.toNat = 0) : free ptr.toInt32 size.toInt32 a = a := by
  have hzero : ptr.toInt32 ≤ 0 := by
    rw [int32_le_zero_iff, toUInt32_toInt32]
    exact .inl hptr
  simp only [free, hzero, true_or, if_true]

section Cases

variable {fp : UInt64} {host : DispatchImports} (hd : Distinct host) {results : List NumType}
  {argL resL : PackedLayout} {args : List Value} {mem : Memory} {arena : ArenaState}
  {env : DispatchEnv} {kernel : CachedKernel} (hlen : args.length + 1 < 2 ^ 32)
  (hcache : env.cache (CacheKey.forTenant env.tenantId fp env.smVersion) = some kernel)

include hd hlen hcache

/-- An empty signature: `alloc` refuses zero bytes, and its `-1` is refused by `dispatch`. -/
theorem invoke_empty (hargs : args = []) (hzero : argL.totalBytes + resL.totalBytes = 0) :
    (trampolineBody fp host args results argL resL).invoke (hostImports env host)
      args mem ⟨arena, []⟩ = .error .unreachable := by
  subst hargs
  have halloc : Exec.alloc (UInt32.ofNat (argL.totalBytes + resL.totalBytes)).toInt32
      env.growOk ⟨arena, some mem⟩ = (⟨arena, some mem⟩, (0xFFFFFFFF : UInt32).toInt32) := by
    rw [hzero]
    exact alloc_nothing _ _
  exact invoke_trap hd hlen halloc (.nil _) (dispatch_negative hcache (by decide) mem) (by decide)

variable (hpage : pageSize ≤ mem.len) (harena : ArenaOk ⟨arena, some mem⟩)
  (hpos : 0 < argL.totalBytes + resL.totalBytes)
  (hmax : argL.totalBytes + resL.totalBytes < 2 ^ 31)
  (h8a : 8 ∣ argL.totalBytes) (h8r : 8 ∣ resL.totalBytes)
  (hfits : argL.totalBytes + resL.totalBytes ≤ arenaFree arena mem)
  {stopA : Nat} (hstopA : stopA ≤ argL.totalBytes)
  (hpackA : Packed 0 (args.map Value.type) argL.offsets stopA)

variable (env host) in
omit hd hcache in
include hpage harena hpos hmax h8a h8r hfits hstopA hpackA in
/-- The slot, and the arguments stored in it. -/
theorem exists_slot :
    ∃ ptr : UInt32,
      ptr.toNat = seededCursor arena mem - (argL.totalBytes + resL.totalBytes) ∧
      ptr.toNat + (argL.totalBytes + resL.totalBytes) = seededCursor arena mem ∧
      seededCursor arena mem ≤ mem.len ∧
      Exec.alloc (UInt32.ofNat (argL.totalBytes + resL.totalBytes)).toInt32 env.growOk
          ⟨arena, some mem⟩ =
        (⟨{ seededArena arena mem with
              bumpCursor := some ptr
              live := (ptr, UInt32.ofNat (argL.totalBytes + resL.totalBytes)) ::
                (seededArena arena mem).live }, some mem⟩, ptr.toInt32) ∧
      ∀ store : Store, Steps (hostImports env host)
        (storeArgs (UInt32.ofNat args.length) 0 (args.map fun v => .num v.type) argL.offsets)
        ⟨[], args ++ [.i32 ptr, .i32 0], mem, store⟩
        ⟨[], args ++ [.i32 ptr, .i32 0], writeArgs ptr.toNat args argL.offsets mem, store⟩ := by
  obtain ⟨ptr, hptr, halloc⟩ := alloc_fits harena hpage hpos hmax (Nat.dvd_add h8a h8r) hfits
    env.growOk
  obtain ⟨c, -, hcursor, -, hc⟩ := exists_seeded harena hpage env.growOk
  unfold arenaFree at hfits
  refine ⟨ptr, hptr, by omega, by omega, halloc, fun store => ?_⟩
  refine (storeArgs_runs _ hpackA ?_ ?_ (by omega) (by omega)).2.resolve_right fun herror => ?_
  · rw [scratch_index hlen]
    exact get_scratch _ _
  · exact get_arg _ _
  · have : mem.len < ptr.toNat + stopA := herror.2.1
    omega

include hpage harena hpos hmax h8a h8r hfits hstopA hpackA

/-- A slot at or above 2 GiB reaches `dispatch` as a negative address. -/
theorem invoke_high (hhigh : 2 ^ 31 ≤ seededCursor arena mem - (argL.totalBytes + resL.totalBytes)) :
    (trampolineBody fp host args results argL resL).invoke (hostImports env host)
      args mem ⟨arena, []⟩ = .error .unreachable := by
  obtain ⟨ptr, hptr, -, -, halloc, hstore⟩ := exists_slot host env hlen hpage harena
    hpos hmax h8a h8r hfits hstopA hpackA
  have hneg : ptr.toInt32 < 0 := by
    rw [int32_lt_zero_iff, toUInt32_toInt32]
    omega
  exact invoke_trap hd hlen halloc (hstore _) (dispatch_negative hcache hneg _) (by decide)

/-- Below 2 GiB the call goes through. -/
theorem invoke_low {stopR : Nat} (hstopR : stopR ≤ resL.totalBytes)
    (hpackR : Packed 0 results resL.offsets stopR) (hlaunch : ∀ m s a r, (env.launch kernel m s a r).isSome)
    (hlow : seededCursor arena mem - (argL.totalBytes + resL.totalBytes) < 2 ^ 31) :
    ∃ (ptr : UInt32) (contents : Nat → UInt8),
      ptr.toNat = seededCursor arena mem - (argL.totalBytes + resL.totalBytes) ∧
      env.launch kernel (writeArgs ptr.toNat args argL.offsets mem) ptr.toNat
        argL.totalBytes resL.totalBytes = some contents ∧
      (trampolineBody fp host args results argL resL).invoke (hostImports env host)
          args mem ⟨arena, []⟩ =
        .ok (readResults ⟨mem.len, contents⟩ (ptr.toNat + argL.totalBytes) results
            resL.offsets, ⟨mem.len, contents⟩,
          ⟨free ptr.toInt32
            (UInt32.ofNat (argL.totalBytes + resL.totalBytes)).toInt32
            { seededArena arena mem with
              bumpCursor := some ptr
              live := (ptr, UInt32.ofNat (argL.totalBytes + resL.totalBytes)) :: (seededArena arena mem).live },
            [.alloc ptr.toInt32, .dispatch (writeArgs ptr.toNat args argL.offsets mem) dispatchOk, .free]⟩) := by
  obtain ⟨ptr, hptr, hsum, hend, halloc, hstore⟩ := exists_slot host env hlen hpage harena
    hpos hmax h8a h8r hfits hstopA hpackA
  obtain ⟨contents, hcontents⟩ := Option.isSome_iff_exists.mp (hlaunch
    (writeArgs ptr.toNat args argL.offsets mem) ptr.toNat argL.totalBytes resL.totalBytes)
  have hdispatch := dispatch_launch hcache (by omega) (by omega) (by omega)
    (by rw [len_writeArgs]; omega) hcontents
  rw [UInt32.ofNat_toNat, len_writeArgs] at hdispatch
  refine ⟨ptr, contents, hptr, hcontents, ?_⟩
  exact invoke_ok hd hlen halloc (hstore _) hdispatch rfl hpackR (by omega)
    (show ptr.toNat + argL.totalBytes + stopR ≤ mem.len by omega)

end Cases

/-- What a call through a trampoline promises: `alloc` hands out a slot, `dispatch` accepts it, the
host sees each argument at its packed offset in it, what is returned is what the kernel left in the
results region, and the arena is as it was. An arena that no call has touched yet counts as
seeded. -/
def AbiAgrees (env : DispatchEnv) (kernel : CachedKernel) (argL resL : PackedLayout)
    (results : List NumType) (args : List Value) (before : ArenaState) (mem : Memory)
    (out : Except Trap (List Value × Memory × Store)) : Prop :=
  ∃ (ptr rc : Int32) (seen : Memory) (contents : Nat → UInt8) (returned : List Value)
    (after : ArenaState),
    out = .ok (returned, ⟨seen.len, contents⟩, ⟨after, [.alloc ptr, .dispatch seen rc, .free]⟩) ∧
    ptr ≠ -1 ∧ rc ≠ dispatchBadScratch ∧
    (∀ (i : Nat) (v : Value) (o : Nat), args[i]? = some v → argL.offsets[i]? = some o →
      seen.read (ptr.toUInt32.toNat + o) v.type.width = v.bytes) ∧
    env.launch kernel seen ptr.toUInt32.toNat argL.totalBytes resL.totalBytes = some contents ∧
    returned = readResults ⟨seen.len, contents⟩ (ptr.toUInt32.toNat + argL.totalBytes) results
      resL.offsets ∧
    after.bumpCursor = (seededArena before mem).bumpCursor ∧ after.live = (seededArena before mem).live

/-- **A trampoline and the host agree exactly when the slot's address is a positive `i32`.** -/
theorem trampoline_abi_iff {fp : UInt64} {n : UInt32} {params results : List NumType}
    {body : FuncBody} {argL resL : PackedLayout}
    (hbuild : buildTrampoline fp ⟨n, n + 1, n + 2⟩ (params.map .num) (results.map .num) = .ok body)
    (hargsLayout : packLayout (params.map .num) = .ok argL)
    (hresultsLayout : packLayout (results.map .num) = .ok resL)
    {mem : Memory} (hpage : pageSize ≤ mem.len) {arena : ArenaState}
    (harena : ArenaOk ⟨arena, some mem⟩)
    (hfits : argL.totalBytes + resL.totalBytes ≤ arenaFree arena mem)
    {args : List Value} (hargs : args.map Value.type = params) {env : DispatchEnv}
    {kernel : CachedKernel}
    (hcache : env.cache (CacheKey.forTenant env.tenantId fp env.smVersion) = some kernel)
    (hlaunch : ∀ m s a r, (env.launch kernel m s a r).isSome) :
    AbiAgrees env kernel argL resL results args arena mem
        (body.invoke (hostImports env ⟨n, n + 1, n + 2⟩) args mem ⟨arena, []⟩) ↔
      0 < argL.totalBytes + resL.totalBytes ∧
        0 < seededCursor arena mem - (argL.totalBytes + resL.totalBytes) ∧
        seededCursor arena mem - (argL.totalBytes + resL.totalBytes) < 2 ^ 31 := by
  subst hargs
  obtain ⟨-, -, _, _, -, -, hargs', hresults', hmax, rfl⟩ := exists_layouts hbuild
  cases hargsLayout.symm.trans hargs'
  cases hresultsLayout.symm.trans hresults'
  obtain ⟨h8a, stopA, hstopA, hpackA⟩ := packLayout_eq_ok hargsLayout
  obtain ⟨h8r, stopR, hstopR, hpackR⟩ := packLayout_eq_ok hresultsLayout
  have hcount := hpackA.le_stop
  rw [List.length_map] at hcount
  have hlen : args.length + 1 < 2 ^ 32 := by omega
  have hd := distinct_imports n
  have hbody : ({ locals := [(2, .num .i32)],
                  ops := trampolineOps fp ⟨n, n + 1, n + 2⟩ ((args.map Value.type).map .num)
                    (results.map .num) argL resL } : FuncBody) =
      trampolineBody fp ⟨n, n + 1, n + 2⟩ args results argL resL := by
    rw [List.map_map]
    rfl
  rw [hbody]
  rcases Nat.eq_zero_or_pos (argL.totalBytes + resL.totalBytes) with hzero | hpos
  · have hnil : args = [] := List.length_eq_zero_iff.mp (by omega)
    rw [invoke_empty hd hlen hcache hnil hzero]
    constructor
    · rintro ⟨ptr, rc, seen, contents, returned, after, hout, -⟩
      cases hout
    · rintro ⟨hpos, -⟩
      omega
  · rcases Nat.lt_or_ge (seededCursor arena mem -
      (argL.totalBytes + resL.totalBytes)) (2 ^ 31) with hlow | hhigh
    · obtain ⟨slot, contents, hslot, hcontents, hinvoke⟩ := invoke_low hd hlen hcache hpage harena
        hpos hmax h8a h8r hfits hstopA hpackA hstopR hpackR hlaunch hlow
      obtain ⟨c, -, hcursor, hbump, -⟩ := exists_seeded harena hpage env.growOk
      have hsize : (UInt32.ofNat (argL.totalBytes + resL.totalBytes)).toNat = argL.totalBytes + resL.totalBytes :=
        toNat_ofNat_of_lt' (by rw [UInt32.size]; omega)
      unfold arenaFree at hfits
      rw [hinvoke]
      constructor
      · rintro ⟨ptr, rc, seen, contents', returned, after, hout, -, -, -, -, -, hafter, -⟩
        refine ⟨hpos, ?_, hlow⟩
        rw [← hslot]
        by_contra hnull
        -- the slot at address 0 is still there, so the cursor has moved
        have hstore := (Prod.mk.inj (Prod.mk.inj (Except.ok.inj hout)).2).2
        rw [free_null (by omega)] at hstore
        obtain ⟨rfl, -⟩ := Store.mk.inj hstore
        have hsame : slot = c := Option.some.inj (hafter.trans hbump)
        rw [hsame] at hslot
        omega
      · rintro ⟨-, hptr, -⟩
        rw [← hslot] at hptr
        have hback : slot + UInt32.ofNat (argL.totalBytes + resL.totalBytes) = c := by
          apply UInt32.toNat_inj.mp
          have hc := c.toNat_lt
          rw [toNat_add, hsize, Nat.mod_eq_of_lt (by omega)]
          omega
        refine ⟨slot.toInt32, dispatchOk, _, contents, _, { seededArena arena mem with
            bumpCursor := some (slot + UInt32.ofNat (argL.totalBytes + resL.totalBytes)) },
          ?_, ?_, by decide, ?_, hcontents, rfl, ?_, rfl⟩
        · rw [free_newest hptr (by omega) (by omega) (by omega), len_writeArgs]
          rfl
        · intro hminus
          have hbits : slot = 0xFFFFFFFF := congrArg Int32.toUInt32 hminus
          rw [hbits] at hslot
          exact absurd hslot (by simp; omega)
        · intro i v o hv ho
          exact hpackA.read_writeArgs slot.toNat mem hv ho
        · rw [hback, hbump]
    · rw [invoke_high hd hlen hcache hpage harena hpos hmax h8a h8r hfits hstopA hpackA hhigh]
      constructor
      · rintro ⟨ptr, rc, seen, contents, returned, after, hout, -⟩
        cases hout
      · rintro ⟨-, -, hlow⟩
        omega

/-! ## Two calls -/

/-- A kernel that leaves the sum of two `i32` arguments in the results region. -/
def addLaunch (mem : Memory) (scratch alen : Nat) : Nat → UInt8 :=
  (mem.write (scratch + alen) (leBytes 4 (ofLeBytes (mem.read scratch 4) +
    ofLeBytes (mem.read (scratch + 4) 4)))).byte

/-- A host whose cache answers every key with one kernel. -/
def addEnv : DispatchEnv :=
  { tenantId := 0, smVersion := 80,
    cache := fun _ => some ⟨7, ⟨"", (1, 1)⟩, []⟩,
    launch := fun _ mem scratch alen _ => some (addLaunch mem scratch alen),
    growOk := false }

theorem addCall_agrees :
    ∃ body argL resL,
      buildTrampoline 7 ⟨0, 1, 2⟩ [.num .i32, .num .i32] [.num .i32] = .ok body ∧
      AbiAgrees addEnv ⟨7, ⟨"", (1, 1)⟩, []⟩ argL resL [.i32] [.i32 2, .i32 3]
        ArenaState.default (ofPages 2)
        (body.invoke (hostImports addEnv ⟨0, 1, 2⟩) [.i32 2, .i32 3] (ofPages 2) ⟨ArenaState.default, []⟩) := by
  have hbuild : buildTrampoline 7 ⟨0, 0 + 1, 0 + 2⟩ (([.i32, .i32] : List NumType).map .num)
      (([.i32] : List NumType).map .num) = .ok _ := rfl
  exact ⟨_, _, _, hbuild, (trampoline_abi_iff hbuild rfl rfl (Nat.le_add_left _ _)
    (.inl ⟨rfl, rfl⟩) (by decide) rfl rfl (fun _ _ _ _ => rfl)).mpr (by decide)⟩

/-- **A function without parameters and results traps**: its scratch size is 0, `alloc(0)` answers
`-1`, and `dispatch` refuses that address. -/
theorem emptySignature_traps :
    packLayout [] = .ok ⟨[], 0⟩ ∧
    ∃ body, buildTrampoline 7 ⟨0, 1, 2⟩ [] [] = .ok body ∧
      body.invoke (hostImports addEnv ⟨0, 1, 2⟩) [] (ofPages 2) ⟨ArenaState.default, []⟩ = .error .unreachable ∧
      (Exec.alloc 0 false ⟨ArenaState.default, some (ofPages 2)⟩).2 = -1 ∧
      (dispatch addEnv 7 0 (-1) 0 0 (some (ofPages 2))).2 = dispatchBadScratch ∧
      ¬ AbiAgrees addEnv ⟨7, ⟨"", (1, 1)⟩, []⟩ ⟨[], 0⟩ ⟨[], 0⟩ [] [] ArenaState.default
        (ofPages 2)
        (body.invoke (hostImports addEnv ⟨0, 1, 2⟩) [] (ofPages 2) ⟨ArenaState.default, []⟩) := by
  refine ⟨rfl, _, rfl, rfl, rfl, by decide, ?_⟩
  rintro ⟨ptr, rc, seen, contents, returned, after, hout, -⟩
  cases hout

end TensorWasm.Jit
