import TensorWasm.Exec.Arena
import TensorWasm.Lib.BumpStack

/-!
# The arena is a stack below the seeded top

Whatever a guest passes to `alloc` and `free`, and however its memory grows in between, the live
slots stay a downward stack from the top that the seeding call chose. The invariant is carried by
one lemma per host call; the run lemmas are folds over them. Nested calls undo each other.
-/

namespace TensorWasm.Exec

open Lib Wasm
open HostState (init)
open Memory (ofPages)

/-- The live slots as numbers, newest first. -/
def ArenaState.slots (a : ArenaState) : List (Nat × Nat) :=
  a.live.map fun b => (b.1.toNat, b.2.toNat)

/-- The invariant of a seeded arena, with the top it was seeded at. -/
structure ArenaLayout (top : Nat) (a : ArenaState) : Prop where
  topFits : top < 2 ^ 32
  floor : a.arenaFloor.toNat = top - scratchArenaBytes.toNat
  sized : ∀ b ∈ a.slots, 0 < b.2 ∧ 8 ∣ b.2
  stacked : ∃ c, a.bumpCursor = some c ∧ Stacked top c.toNat a.slots ∧ a.arenaFloor.toNat ≤ c.toNat

/-- Before seeding nothing is live. -/
def ArenaUnseeded (a : ArenaState) : Prop := a.bumpCursor = none ∧ a.live = []

/-! ## One call -/

variable {memory memory' : Memory} {growOk : Bool} {a : ArenaState} {c : UInt32}

/-- The first seeding: the arena is the upper `SCRATCH_ARENA_BYTES` of memory. -/
theorem ArenaUnseeded.seed {a' : ArenaState} (h : ArenaUnseeded a)
    (hseed : seedCursor growOk a memory = some (a', memory', c)) :
    ArenaLayout c.toNat a' ∧ a'.bumpCursor = some c ∧ a'.live = [] ∧ c = clampU32 memory'.len ∧
      growForArena growOk memory = some memory' := by
  rcases seedCursor_eq_some hseed with ⟨hsome, -⟩ | ⟨-, hgrow, hc, rfl⟩
  · exact absurd (h.1.symm.trans hsome) (by simp)
  · refine ⟨⟨c.toNat_lt, toNat_saturatingSub _ _, ?_, c, rfl, ?_, ?_⟩, rfl, h.2, hc, hgrow⟩
    · intro b hb
      rw [ArenaState.slots, h.2] at hb
      cases hb
    · rw [ArenaState.slots, h.2]
      rfl
    · rw [toNat_saturatingSub]
      exact Nat.sub_le _ _

variable {top : Nat}

/-- A seeded arena is not seeded again. -/
theorem ArenaLayout.seed {a' : ArenaState} (h : ArenaLayout top a)
    (hseed : seedCursor growOk a memory = some (a', memory', c)) :
    a' = a ∧ memory' = memory ∧ a.bumpCursor = some c := by
  obtain ⟨c', hc', -⟩ := h.stacked
  rcases seedCursor_eq_some hseed with ⟨hsome, rfl, rfl⟩ | ⟨hnone, -⟩
  · exact ⟨rfl, rfl, hsome⟩
  · exact absurd (hc'.symm.trans hnone) (by simp)

variable {size : Int32}

/-- A slot handed out below the cursor extends the stack. -/
theorem ArenaLayout.slot {ptr : UInt32} (h : ArenaLayout top a) (hc : a.bumpCursor = some c) (hsize : ¬ size ≤ 0)
    (hptr : checkedSub c (alignedSize size.toUInt32) = some ptr) (hfloor : a.arenaFloor.toNat ≤ ptr.toNat) :
    ArenaLayout top { a with bumpCursor := some ptr, live := (ptr, alignedSize size.toUInt32) :: a.live } := by
  obtain ⟨c', hc', hstack, -⟩ := h.stacked
  obtain rfl := Option.mem_unique hc hc'
  obtain ⟨hle, hnat⟩ := checkedSub_eq_some hptr
  obtain ⟨haligned, hpos, -⟩ := toNat_alignedSize hsize
  refine ⟨h.topFits, h.floor, ?_, ptr, rfl, ?_, hfloor⟩
  · intro b hb
    rcases List.mem_cons.mp hb with rfl | hb
    · show 0 < (alignedSize size.toUInt32).toNat ∧ 8 ∣ (alignedSize size.toUInt32).toNat
      rw [haligned]
      exact ⟨by omega, ⟨_, Nat.mul_comm _ _⟩⟩
    · exact h.sized b hb
  · have hpush := hstack.push hle
    rw [← hnat] at hpush
    exact hpush

variable {s : HostState}

theorem ArenaLayout.alloc (h : ArenaLayout top s.arena) (size : Int32) (growOk : Bool) :
    ArenaLayout top (Exec.alloc size growOk s).1.arena := by
  have hout := alloc_outcome size growOk s
  generalize Exec.alloc size growOk s = r at hout ⊢
  cases hout with
  | unchanged => exact h
  | refused memory arena memory' cursor hmem hseed =>
    obtain ⟨rfl, -, -⟩ := h.seed hseed
    exact h
  | slot memory arena memory' cursor ptr hsize hmem hseed hptr hfloor =>
    obtain ⟨rfl, -, hc⟩ := h.seed hseed
    exact h.slot hc hsize hptr hfloor

theorem ArenaLayout.free (h : ArenaLayout top a) (ptr size : Int32) : ArenaLayout top (Exec.free ptr size a) := by
  rcases free_cases ptr size a with heq | ⟨topSize, rest, hlive, heq⟩
  · rw [heq]
    exact h
  · rw [heq]
    obtain ⟨c, hc, hstack, hle⟩ := h.stacked
    have hslots : a.slots = (ptr.toUInt32.toNat, topSize.toNat) ::
        rest.map fun b => (b.1.toNat, b.2.toNat) := by rw [ArenaState.slots, hlive]; rfl
    rw [hslots] at hstack
    obtain ⟨hcursor, hpop⟩ := hstack.pop
    have hfits := h.topFits
    have hend := hpop.cursor_le
    -- the end of a slot is at most the top, so the addition does not wrap
    have hadd : (ptr.toUInt32 + topSize).toNat = ptr.toUInt32.toNat + topSize.toNat := by
      rw [UInt32.toNat_add, Nat.mod_eq_of_lt (by omega)]
    refine ⟨h.topFits, h.floor, ?_, _, rfl, ?_, ?_⟩
    · intro b hb
      refine h.sized b ?_
      rw [hslots]
      exact List.mem_cons_of_mem _ hb
    · rw [hadd]
      exact hpop
    · rw [hadd]
      exact Nat.le_trans hle (by omega)

/-! ## Whole runs -/

theorem ArenaLayout.alloc_memory (h : ArenaLayout top s.arena) (size : Int32) (growOk : Bool) :
    (Exec.alloc size growOk s).1.memory = s.memory := by
  have hout := alloc_outcome size growOk s
  generalize Exec.alloc size growOk s = r at hout ⊢
  cases hout with
  | unchanged => rfl
  | refused memory arena memory' cursor hmem hseed | slot memory arena memory' cursor ptr _ hmem hseed =>
    obtain ⟨-, rfl, -⟩ := h.seed hseed
    exact hmem.symm

theorem ArenaLayout.step (h : ArenaLayout top s.arena) (op : ArenaOp) : ArenaLayout top (s.step op).arena := by
  cases op with
  | alloc size growOk => exact h.alloc size growOk
  | free ptr size => exact h.free ptr size
  | grow pages => exact h

/-- **Once seeded, always a stack below the same top.** -/
theorem ArenaLayout.run (h : ArenaLayout top s.arena) (ops : List ArenaOp) : ArenaLayout top (s.run ops).arena := by
  induction ops generalizing s with
  | nil => exact h
  | cons op ops ih => exact ih (h.step op)

/-- A call on an unseeded arena leaves it, or seeds it at the end of memory, as a `u32`. -/
theorem ArenaUnseeded.alloc (h : ArenaUnseeded s.arena) (size : Int32) (growOk : Bool) :
    ArenaUnseeded (Exec.alloc size growOk s).1.arena ∨
      ∃ m m', s.memory = some m ∧ growForArena growOk m = some m' ∧ (Exec.alloc size growOk s).1.memory = some m' ∧
        ArenaLayout (min m'.len (2 ^ 32 - 1)) (Exec.alloc size growOk s).1.arena := by
  have hout := alloc_outcome size growOk s
  generalize Exec.alloc size growOk s = r at hout ⊢
  cases hout with
  | unchanged => exact .inl h
  | refused memory arena memory' cursor hmem hseed =>
    obtain ⟨hlayout, -, -, rfl, hgrow⟩ := h.seed hseed
    rw [toNat_clampU32] at hlayout
    exact .inr ⟨memory, memory', hmem, hgrow, rfl, hlayout⟩
  | slot memory arena memory' cursor ptr hsize hmem hseed hptr hfloor =>
    obtain ⟨hlayout, hc, -, rfl, hgrow⟩ := h.seed hseed
    have hslot := hlayout.slot hc hsize hptr hfloor
    rw [toNat_clampU32] at hslot
    exact .inr ⟨memory, memory', hmem, hgrow, rfl, hslot⟩

theorem ArenaUnseeded.free (h : ArenaUnseeded a) (ptr size : Int32) : ArenaUnseeded (Exec.free ptr size a) := by
  have hkeep : Exec.free ptr size a = a := by
    refine free_of_ne size fun b hb => ?_
    rw [h.2] at hb
    cases hb
  rw [hkeep]
  exact h

/-- Every reachable state: the arena is unseeded, or laid out inside the memory. -/
def ArenaOk (s : HostState) : Prop :=
  ArenaUnseeded s.arena ∨ ∃ top memory, ArenaLayout top s.arena ∧ s.memory = some memory ∧ top ≤ memory.len

theorem HostState.run_append (s : HostState) (ops ops' : List ArenaOp) :
    s.run (ops ++ ops') = (s.run ops).run ops' := List.foldl_append

theorem HostState.run_snoc (s : HostState) (ops : List ArenaOp) (op : ArenaOp) :
    s.run (ops ++ [op]) = (s.run ops).step op := s.run_append ops [op]

/-- The call of `alloc` behind `before` is the one that seeds the arena, at `top`: the end of memory once
there is room for the arena, as a `u32`. -/
structure SeedsAt (memory : Option Memory) (before : List ArenaOp) (size : Int32) (growOk : Bool)
    (top : Nat) : Prop where
  unseeded : ((init memory).run before).arena.bumpCursor = none
  seeded : ((init memory).run (before ++ [.alloc size growOk])).arena.bumpCursor ≠ none
  top : ∃ m m', ((init memory).run before).memory = some m ∧ growForArena growOk m = some m' ∧
    top = min m'.len (2 ^ 32 - 1)

/-- One of the calls has seeded the arena, at `top`. -/
def SeededTop (memory : Option Memory) (ops : List ArenaOp) (top : Nat) : Prop :=
  ∃ before size growOk after, ops = before ++ .alloc size growOk :: after ∧ SeedsAt memory before size growOk top

theorem SeededTop.append {memory : Option Memory} {ops : List ArenaOp} (h : SeededTop memory ops top)
    (more : List ArenaOp) : SeededTop memory (ops ++ more) top := by
  obtain ⟨before, size, growOk, after, rfl, hseeds⟩ := h
  exact ⟨before, size, growOk, after ++ more, by simp, hseeds⟩

theorem ArenaLayout.cursor_ne_none (h : ArenaLayout top a) : a.bumpCursor ≠ none := by
  obtain ⟨c, hc, -⟩ := h.stacked
  simp [hc]

/-- Memory is never taken back, so a top inside it stays inside. -/
theorem ArenaLayout.step_memory (h : ArenaLayout top s.arena) (hmem : ∃ m, s.memory = some m ∧ top ≤ m.len)
    (op : ArenaOp) : ∃ m, (s.step op).memory = some m ∧ top ≤ m.len := by
  obtain ⟨m, hm, hle⟩ := hmem
  cases op with
  | alloc size growOk => exact ⟨m, (h.alloc_memory size growOk).trans hm, hle⟩
  | free ptr size => exact ⟨m, hm, hle⟩
  | grow pages => exact ⟨m.grow pages, by simp [HostState.step, hm], Nat.le_trans hle (Nat.le_add_right _ _)⟩

/-- After every run the arena is unseeded, or laid out below the top that one of the calls has seeded, inside
the memory. -/
theorem unseeded_or_layout (memory : Option Memory) (ops : List ArenaOp) :
    ArenaUnseeded ((init memory).run ops).arena ∨
      ∃ top, SeededTop memory ops top ∧ ArenaLayout top ((init memory).run ops).arena ∧
        ∃ m, ((init memory).run ops).memory = some m ∧ top ≤ m.len := by
  -- from the end, so that the state before the last call is there to name the top
  induction ops using List.reverseRecOn with
  | nil => exact .inl ⟨rfl, rfl⟩
  | append_singleton ops op ih =>
    rw [HostState.run_snoc]
    rcases ih with hnone | ⟨top, hseeded, hlayout, hmem⟩
    · cases op with
      | alloc size growOk =>
        rcases hnone.alloc size growOk with hnone' | ⟨m, m', hmem, hgrow, hmem', hlayout⟩
        · exact .inl hnone'
        · refine .inr ⟨_, ⟨ops, size, growOk, [], rfl, hnone.1, ?_, m, m', hmem, hgrow, rfl⟩, hlayout, m', hmem',
            Nat.min_le_left _ _⟩
          rw [HostState.run_snoc]
          exact hlayout.cursor_ne_none
      | free ptr size => exact .inl (hnone.free ptr size)
      | grow pages => exact .inl hnone
    · exact .inr ⟨top, hseeded.append [op], hlayout.step op, hlayout.step_memory hmem op⟩

/-- **Every reachable state is fine.** -/
theorem arenaOk_run (memory : Option Memory) (ops : List ArenaOp) : ArenaOk ((init memory).run ops) := by
  rcases unseeded_or_layout memory ops with hnone | ⟨top, -, hlayout, m, hmem, hle⟩
  · exact .inl hnone
  · exact .inr ⟨top, m, hlayout, hmem, hle⟩

/-- A call that does not answer -1 has pushed the slot it answers. -/
theorem alloc_pushes (hok : (Exec.alloc size growOk s).2 ≠ -1) :
    (Exec.alloc size growOk s).1.arena.bumpCursor ≠ none ∧
      (Exec.alloc size growOk s).1.arena.live =
        ((Exec.alloc size growOk s).2.toUInt32, alignedSize size.toUInt32) :: s.arena.live := by
  have hout := alloc_outcome size growOk s
  generalize Exec.alloc size growOk s = r at hout hok ⊢
  cases hout with
  | unchanged | refused => exact absurd rfl hok
  | slot memory arena memory' cursor ptr hsize hmem hseed hptr hfloor =>
    rcases seedCursor_eq_some hseed with ⟨-, rfl, -⟩ | ⟨-, -, -, rfl⟩ <;> simp

/-- What holds of the arena from the first slot on. -/
structure ArenaInvariant (top : Nat) (a : ArenaState) : Prop where
  /-- The arena is the 64 KiB below the top, or what there is. -/
  floor : a.arenaFloor.toNat = top - 64 * 1024
  disjoint : a.slots.Pairwise Separate
  sized : ∀ b ∈ a.slots, 0 < b.2 ∧ 8 ∣ b.2
  inside : ∀ b ∈ a.slots, a.arenaFloor.toNat ≤ b.1 ∧ b.1 + b.2 ≤ top
  /-- The slots follow each other without gaps from the top down to the cursor, and the cursor is
  the top less their sizes. -/
  contiguous : ∃ c, a.bumpCursor = some c ∧ Stacked top c.toNat a.slots ∧
    totalSize a.slots ≤ top ∧ c.toNat = top - totalSize a.slots
  allocPushes : ∀ (memory : Option Memory) (size : Int32) (growOk : Bool), (alloc size growOk ⟨a, memory⟩).2 ≠ -1 →
    (alloc size growOk ⟨a, memory⟩).1.arena.live =
      ((alloc size growOk ⟨a, memory⟩).2.toUInt32, alignedSize size.toUInt32) :: a.live
  freeOther : ∀ ptr size : Int32, (∀ b ∈ a.live.head?, b.1 ≠ ptr.toUInt32) → free ptr size a = a

theorem ArenaLayout.invariant (h : ArenaLayout top a) : ArenaInvariant top a := by
  obtain ⟨c, hc, hstack, hfloor⟩ := h.stacked
  have hsum := hstack.cursor_add
  refine ⟨h.floor, hstack.pairwise_separate, h.sized, ?_, ⟨c, hc, hstack, by omega, by omega⟩, ?_, ?_⟩
  · intro b hb
    obtain ⟨hlow, hhigh⟩ := hstack.mem_bounds b hb
    exact ⟨Nat.le_trans hfloor hlow, hhigh⟩
  · intro memory size growOk hok
    exact (alloc_pushes hok).2
  · intro ptr size hne
    exact free_of_ne size hne

/-- **The scratch arena invariant.** A call of `alloc` that hands out a slot pushes it, on an arena that one
of the calls so far has seeded; after it, and after whatever calls and memory growth follow it, the live
slots are a gapless downward stack from the seeded top, inside `[arena_floor, top)`. -/
theorem arena_invariant (memory : Option Memory) (before : List ArenaOp) (size : Int32)
    (growOk : Bool) (hok : (alloc size growOk ((init memory).run before)).2 ≠ -1) :
    ((init memory).run (before ++ [.alloc size growOk])).arena.live =
      ((alloc size growOk ((init memory).run before)).2.toUInt32, alignedSize size.toUInt32) ::
        ((init memory).run before).arena.live ∧
    ∃ top, SeededTop memory (before ++ [.alloc size growOk]) top ∧ ∀ after : List ArenaOp, ArenaInvariant top
      ((init memory).run (before ++ .alloc size growOk :: after)).arena := by
  obtain ⟨hcursor, hlive⟩ := alloc_pushes hok
  rw [HostState.run_snoc]
  refine ⟨hlive, ?_⟩
  rcases unseeded_or_layout memory (before ++ [.alloc size growOk]) with hnone | ⟨top, hseeded, hlayout, -⟩
  · rw [HostState.run_snoc] at hnone
    exact absurd hnone.1 hcursor
  · refine ⟨top, hseeded, fun after => ?_⟩
    rw [List.append_cons, HostState.run_append]
    exact (hlayout.run after).invariant

/-- After a refused call and some growth, the first slot of a memory of two pages. -/
theorem arena_invariant_two_pages :
    let ops := [.alloc 0 false, .grow 1]
    let s := (init (some (ofPages 2))).run ops
    (alloc 64 false s).2 ≠ -1 ∧ (s.step (.alloc 64 false)).arena.live = [(196544, 64)] ∧
      ∃ top, SeededTop (some (ofPages 2)) (ops ++ [.alloc 64 false]) top ∧
        ∀ after : List ArenaOp, ArenaInvariant top
          ((init (some (ofPages 2))).run (ops ++ .alloc 64 false :: after)).arena :=
  ⟨by decide, by decide,
    (arena_invariant (some (ofPages 2)) [.alloc 0 false, .grow 1] 64 false (by decide)).2⟩

/-! ## Where the arena lies -/

/-- The top the first call seeds: the end of memory after the conditional growth, as a `u32`. -/
def arenaTop (pages : Nat) : Nat := min (max pages 1 * pageSize) (2 ^ 32 - 1)

variable {pages : Nat}

theorem len_growForArena (hlen : memory.len = pages * pageSize) (h : growForArena growOk memory = some memory') :
    memory'.len = max pages 1 * pageSize := by
  unfold growForArena at h
  simp only [hlen, pageSize, show scratchArenaBytes.toNat = 65536 from rfl] at h ⊢
  split at h
  · rename_i hsmall
    obtain rfl : pages = 0 := by omega
    split at h
    · split at h
      · cases h
        simp [hlen, pageSize]
      · cases h
    · rename_i hneeded
      exact absurd hneeded (by decide)
  · cases h
    have hpages : max pages 1 = pages := by omega
    rw [hpages, hlen, pageSize]

/-- Before the first call of `alloc`, or seeded by it. -/
def SeededAt (pages : Nat) (s : HostState) : Prop :=
  (ArenaUnseeded s.arena ∧ ∃ memory, s.memory = some memory ∧ memory.len = pages * pageSize) ∨
    ArenaLayout (arenaTop pages) s.arena

theorem SeededAt.seed {arena : ArenaState} (h : SeededAt pages s) (hmem : s.memory = some memory)
    (hseed : seedCursor growOk s.arena memory = some (arena, memory', c)) :
    ArenaLayout (arenaTop pages) arena ∧ arena.bumpCursor = some c := by
  rcases h with ⟨hnone, memory₀, hmem₀, hlen⟩ | hlayout
  · obtain rfl := Option.mem_unique hmem hmem₀
    obtain ⟨hlayout, hc, -, hclamp, hgrow⟩ := hnone.seed hseed
    have htop : c.toNat = arenaTop pages := by
      rw [hclamp, toNat_clampU32, len_growForArena hlen hgrow, arenaTop]
    exact ⟨htop ▸ hlayout, hc⟩
  · obtain ⟨rfl, -, hc⟩ := hlayout.seed hseed
    exact ⟨hlayout, hc⟩

theorem SeededAt.alloc (h : SeededAt pages s) (size : Int32) (growOk : Bool) :
    SeededAt pages (Exec.alloc size growOk s).1 := by
  have hout := alloc_outcome size growOk s
  generalize Exec.alloc size growOk s = r at hout ⊢
  cases hout with
  | unchanged => exact h
  | refused memory arena memory' cursor hmem hseed => exact .inr (h.seed hmem hseed).1
  | slot memory arena memory' cursor ptr hsize hmem hseed hptr hfloor =>
    obtain ⟨hlayout, hc⟩ := h.seed hmem hseed
    exact .inr (hlayout.slot hc hsize hptr hfloor)

/-- A sequence of calls of `alloc`. -/
def allocs (calls : List (Int32 × Bool)) : List ArenaOp :=
  calls.map fun c => .alloc c.1 c.2

theorem SeededAt.run (h : SeededAt pages s) (calls : List (Int32 × Bool)) :
    SeededAt pages (s.run (allocs calls)) := by
  induction calls generalizing s with
  | nil => exact h
  | cons call calls ih => exact ih (h.alloc call.1 call.2)

/-- The slot a successful call hands out. -/
theorem SeededAt.slot_bounds (h : SeededAt pages s) (hok : (Exec.alloc size growOk s).2 ≠ -1) :
    arenaTop pages - scratchArenaBytes.toNat ≤ (Exec.alloc size growOk s).2.toUInt32.toNat ∧
      (Exec.alloc size growOk s).2.toUInt32.toNat + (alignedSize size.toUInt32).toNat ≤ arenaTop pages ∧
      0 < (alignedSize size.toUInt32).toNat := by
  have hout := alloc_outcome size growOk s
  generalize Exec.alloc size growOk s = r at hout hok ⊢
  cases hout with
  | unchanged | refused => exact absurd rfl hok
  | slot memory arena memory' cursor ptr hsize hmem hseed hptr hfloor =>
    obtain ⟨hlayout, hc⟩ := h.seed hmem hseed
    have hafter := hlayout.slot hc hsize hptr hfloor
    have hmem : (ptr.toNat, (alignedSize size.toUInt32).toNat) ∈
        ArenaState.slots ⟨some ptr, arena.arenaFloor,
          (ptr, alignedSize size.toUInt32) :: arena.live⟩ := List.mem_cons_self
    obtain ⟨hlow, hhigh⟩ := hafter.invariant.inside _ hmem
    rw [hafter.floor] at hlow
    exact ⟨hlow, hhigh, (hafter.sized _ hmem).1⟩

/-- **Slots lie in the upper `SCRATCH_ARENA_BYTES` of memory**, never below the floor computed by
the first call; a slot lies in memory the host added exactly when the guest had none. -/
theorem slots_above_floor (pages : Nat) (contents : Nat → UInt8) (calls : List (Int32 × Bool))
    (size : Int32) (growOk : Bool) :
    let s := (init (some ⟨pages * pageSize, contents⟩)).run (allocs calls)
    let ptr := (alloc size growOk s).2
    ptr ≠ -1 →
      arenaTop pages - scratchArenaBytes.toNat ≤ ptr.toUInt32.toNat ∧
        ptr.toUInt32.toNat + (alignedSize size.toUInt32).toNat ≤ arenaTop pages ∧
        (pages * pageSize ≤ ptr.toUInt32.toNat ↔ pages = 0) := by
  intro s ptr hok
  have hinit : SeededAt pages (init (some ⟨pages * pageSize, contents⟩)) :=
    .inl ⟨⟨rfl, rfl⟩, _, rfl, rfl⟩
  obtain ⟨hlow, hhigh, hpos⟩ := (hinit.run calls).slot_bounds hok
  refine ⟨hlow, hhigh, fun hadded => ?_, fun hzero => ?_⟩
  · -- with a page of its own the guest's memory ends at or above the top
    by_contra hne
    have htop : arenaTop pages ≤ pages * pageSize := by
      rw [arenaTop, max_eq_left (by omega)]
      exact min_le_left _ _
    have hend : ptr.toUInt32.toNat + (alignedSize size.toUInt32).toNat ≤ pages * pageSize :=
      Nat.le_trans hhigh htop
    omega
  · rw [hzero, Nat.zero_mul]
    exact Nat.zero_le _

theorem slots_above_floor_two_pages :
    (alloc 64 false (init (some (ofPages 2)))).2 ≠ -1 ∧
      arenaTop 2 - scratchArenaBytes.toNat ≤ (alloc 64 false (init (some (ofPages 2)))).2.toUInt32.toNat :=
  ⟨by decide, (slots_above_floor 2 (fun _ => 0) [] 64 false (by decide)).1⟩

/-- With two pages the slot is in the guest's own second page: the host adds no memory. -/
theorem slot_in_guest_memory :
    let s := init (some (ofPages 2))
    (alloc 64 false s).2 = 131008 ∧ (alloc 64 false s).2.toUInt32.toNat + 64 ≤ 2 * pageSize ∧
      (alloc 64 false s).1.memory.map Memory.len = some (2 * pageSize) := by
  decide

/-! ## Nested calls -/

/-- Freeing the slot of the last `alloc` undoes it, if the pointer is positive. -/
theorem free_alloc (hseeded : s.arena.bumpCursor ≠ none) (hptr : 0 < (Exec.alloc size growOk s).2) :
    (Exec.alloc size growOk s).1.arena.bumpCursor ≠ none ∧
      Exec.free (Exec.alloc size growOk s).2 size (Exec.alloc size growOk s).1.arena = s.arena := by
  have hout := alloc_outcome size growOk s
  generalize Exec.alloc size growOk s = out at hout hptr ⊢
  cases hout with
  | unchanged | refused => exact absurd hptr (by decide : ¬ (0 : Int32) < -1)
  | slot memory arena memory' cursor ptr hsize hmem hseed hsub hfloor =>
    rcases seedCursor_eq_some hseed with ⟨hcursor, rfl, -⟩ | ⟨hnone, -⟩
    · rw [checkedSub_of_le (checkedSub_eq_some hsub).1] at hsub
      have hback : ptr + alignedSize size.toUInt32 = cursor := by
        rw [← Option.some.inj hsub, UInt32.sub_add_cancel]
      simp [free, Int32.not_le.mpr hptr, hsize, hback, ← hcursor]
    · exact absurd hnone hseeded

/-- A guest that frees each of its slots after those it allocated later; its memory may grow. -/
inductive Nested : HostState → List ArenaOp → Prop where
  | nil (s : HostState) : Nested s []
  | grow {s : HostState} {pages : Nat} {ops : List ArenaOp} (h : Nested (s.step (.grow pages)) ops) :
    Nested s (.grow pages :: ops)
  | slot {s : HostState} {size : Int32} {growOk : Bool} {inner ops : List ArenaOp}
      (hptr : 0 < (alloc size growOk s).2) (hinner : Nested (alloc size growOk s).1 inner)
      (h : Nested (((alloc size growOk s).1.run inner).step (.free (alloc size growOk s).2 size)) ops) :
    Nested s (.alloc size growOk :: (inner ++ .free (alloc size growOk s).2 size :: ops))

/-- **Nested calls leave the arena as they found it.** -/
theorem nested_calls_restore (s : HostState) (ops : List ArenaOp) (hseeded : s.arena.bumpCursor ≠ none)
    (hnested : Nested s ops) : (s.run ops).arena = s.arena := by
  induction hnested with
  | nil => rfl
  | grow _ ih => exact ih hseeded
  | @slot s size growOk inner ops hptr hinner h ihinner ih =>
    obtain ⟨hseeded', hfree⟩ := free_alloc hseeded hptr
    have harena : (((alloc size growOk s).1.run inner).step (.free (alloc size growOk s).2 size)).arena = s.arena := by
      rw [← hfree, ← ihinner hseeded']
      rfl
    rw [← harena] at hseeded ⊢
    rw [← ih hseeded]
    exact congrArg _ (HostState.run_append _ inner _)

theorem nested_calls_restore_two :
    let s := (init (some (ofPages 2))).run [.alloc 64 false]
    (s.run [.alloc 8 false, .alloc 3 false, .free 130992 3, .free 131000 8]).arena = s.arena :=
  nested_calls_restore _ _ (by decide) <| @Nested.slot _ 8 false [_, _] [] (by decide)
    (@Nested.slot _ 3 false [] [] (by decide) (.nil _) (.nil _)) (.nil _)

end TensorWasm.Exec
