import TensorWasm.Lib.Words
import TensorWasm.Wasm.Memory

/-!
# The scratch arena

The `alloc` and `free` imports of `tensor-wasm-exec/src/jit_dispatch.rs` and the per-store
`ArenaState` behind them. Arguments and results are `i32`, as the guest passes them. The stack of
live slots is a list with the newest slot first. Whether the host can grow the memory is not decided
by this code, so it is an argument.
-/

namespace TensorWasm.Exec

open Lib Wasm

/-- Bytes reserved for the scratch arena. -/
def scratchArenaBytes : UInt32 := 64 * 1024

structure ArenaState where
  bumpCursor : Option UInt32
  arenaFloor : UInt32
  live : List (UInt32 × UInt32)

/-- `ArenaState::default`. -/
def ArenaState.default : ArenaState := ⟨none, 0, []⟩

/-- What the imports reach through the caller: the arena of the store and the memory exported as
`memory`, if there is one. -/
structure HostState where
  arena : ArenaState
  memory : Option Memory

/-- `u32::saturating_sub`. -/
def saturatingSub (a b : UInt32) : UInt32 := if b ≤ a then a - b else 0

/-- `u32::checked_sub`. -/
def checkedSub (a b : UInt32) : Option UInt32 := if b ≤ a then some (a - b) else none

/-- `u32::try_from(n).unwrap_or(u32::MAX)`. -/
def clampU32 (n : Nat) : UInt32 := if n < 2 ^ 32 then UInt32.ofNat n else 0xFFFFFFFF

theorem toNat_saturatingSub (a b : UInt32) : (saturatingSub a b).toNat = a.toNat - b.toNat := by
  unfold saturatingSub
  split
  · rename_i h
    exact UInt32.toNat_sub_of_le _ _ h
  · rename_i h
    have hlt : a.toNat < b.toNat := by
      rw [UInt32.le_iff_toNat_le] at h
      omega
    rw [show (0 : UInt32).toNat = 0 from rfl]
    omega

theorem checkedSub_eq_some {a b r : UInt32} (h : checkedSub a b = some r) :
    b.toNat ≤ a.toNat ∧ r.toNat = a.toNat - b.toNat := by
  unfold checkedSub at h
  split at h
  · rename_i hle
    cases h
    exact ⟨UInt32.le_iff_toNat_le.mp hle, UInt32.toNat_sub_of_le _ _ hle⟩
  · cases h

theorem checkedSub_of_le {a b : UInt32} (h : b.toNat ≤ a.toNat) : checkedSub a b = some (a - b) := by
  unfold checkedSub
  rw [if_pos (UInt32.le_iff_toNat_le.mpr h)]

theorem toNat_clampU32 (n : Nat) : (clampU32 n).toNat = min n (2 ^ 32 - 1) := by
  unfold clampU32
  split
  · rename_i h
    rw [UInt32.toNat_ofNat_of_lt' (by rw [UInt32.size]; exact h)]
    omega
  · rw [show (0xFFFFFFFF : UInt32).toNat = 2 ^ 32 - 1 from rfl]
    omega

theorem toNat_clampU32_le (n : Nat) : (clampU32 n).toNat ≤ n := by
  rw [toNat_clampU32]
  exact Nat.min_le_left _ _

/-- Make room for the arena: a memory smaller than it grows. `none` when the memory cannot grow. -/
def growForArena (growOk : Bool) (memory : Memory) : Option Memory :=
  let arena := scratchArenaBytes.toNat
  if memory.len < arena then
    let pagesNeeded := (arena + (pageSize - 1)) / pageSize - memory.len / pageSize
    if pagesNeeded > 0 then
      if growOk then some (memory.grow pagesNeeded) else none
    else some memory
  else some memory

/-- The cursor to allocate below, seeding the arena at the top of memory on first use. -/
def seedCursor (growOk : Bool) (arena : ArenaState) (memory : Memory) : Option (ArenaState × Memory × UInt32) :=
  match arena.bumpCursor with
  | some c => some (arena, memory, c)
  | none =>
    match growForArena growOk memory with
    | none => none
    | some memory =>
      let top := clampU32 memory.len
      let floor := saturatingSub top scratchArenaBytes
      some ({ arena with arenaFloor := floor, bumpCursor := some top }, memory, top)

/-- Seeding happens once. -/
theorem seedCursor_eq_some {growOk : Bool} {arena arena' : ArenaState} {memory memory' : Memory}
    {c : UInt32} (h : seedCursor growOk arena memory = some (arena', memory', c)) :
    (arena.bumpCursor = some c ∧ arena' = arena ∧ memory' = memory) ∨
      (arena.bumpCursor = none ∧ growForArena growOk memory = some memory' ∧
        c = clampU32 memory'.len ∧
        arena' = { arena with arenaFloor := saturatingSub c scratchArenaBytes,
                              bumpCursor := some c }) := by
  unfold seedCursor at h
  split at h
  · rename_i c' hc
    cases h
    exact .inl ⟨hc, rfl, rfl⟩
  · rename_i hc
    split at h
    · cases h
    · rename_i grown hgrown
      cases h
      exact .inr ⟨hc, hgrown, rfl, rfl⟩

/-- `(size + 7) & !7`. -/
def alignedSize (size : UInt32) : UInt32 := (size + 7) &&& ~~~7

/-- A size that passes the sign check is rounded up to a multiple of eight. -/
theorem toNat_alignedSize {size : Int32} (h : ¬ size ≤ 0) :
    (alignedSize size.toUInt32).toNat = (size.toUInt32.toNat + 7) / 8 * 8 ∧
      0 < size.toUInt32.toNat ∧ size.toUInt32.toNat < 2 ^ 31 := by
  rw [int32_le_zero_iff] at h
  exact ⟨toNat_round_up_eight (by omega), by omega, by omega⟩

/-- The host's `alloc`. -/
def alloc (size : Int32) (growOk : Bool) (s : HostState) : HostState × Int32 :=
  if size ≤ 0 then (s, -1)
  else
    match s.memory with
    | none => (s, -1)
    | some memory =>
      match seedCursor growOk s.arena memory with
      | none => (s, -1)
      | some (arena, memory, cursor) =>
        let aligned := alignedSize size.toUInt32
        match checkedSub cursor aligned with
        | none => (⟨arena, some memory⟩, -1)
        | some ptr =>
          if ptr < arena.arenaFloor then (⟨arena, some memory⟩, -1)
          else
            (⟨{ arena with bumpCursor := some ptr, live := (ptr, aligned) :: arena.live },
              some memory⟩, ptr.toInt32)

/-- What a call of `alloc` can do: nothing; seed the arena and refuse; or hand out the slot below
the cursor. -/
inductive AllocOutcome (size : Int32) (growOk : Bool) (s : HostState) : HostState × Int32 → Prop where
  | unchanged : AllocOutcome size growOk s (s, -1)
  | refused (memory : Memory) (arena : ArenaState) (memory' : Memory) (cursor : UInt32)
      (hmem : s.memory = some memory)
      (hseed : seedCursor growOk s.arena memory = some (arena, memory', cursor)) :
      AllocOutcome size growOk s (⟨arena, some memory'⟩, -1)
  | slot (memory : Memory) (arena : ArenaState) (memory' : Memory) (cursor ptr : UInt32)
      (hsize : ¬ size ≤ 0) (hmem : s.memory = some memory)
      (hseed : seedCursor growOk s.arena memory = some (arena, memory', cursor))
      (hptr : checkedSub cursor (alignedSize size.toUInt32) = some ptr)
      (hfloor : arena.arenaFloor.toNat ≤ ptr.toNat) :
      AllocOutcome size growOk s
        (⟨{ arena with bumpCursor := some ptr,
                       live := (ptr, alignedSize size.toUInt32) :: arena.live }, some memory'⟩,
         ptr.toInt32)

theorem alloc_outcome (size : Int32) (growOk : Bool) (s : HostState) :
    AllocOutcome size growOk s (alloc size growOk s) := by
  unfold alloc
  split
  · exact .unchanged
  · rename_i hsize
    split
    · exact .unchanged
    · rename_i memory hmem
      split
      · exact .unchanged
      · rename_i arena memory' cursor hseed
        dsimp only
        split
        · exact .refused memory arena memory' cursor hmem hseed
        · rename_i ptr hptr
          split
          · exact .refused memory arena memory' cursor hmem hseed
          · rename_i hfloor
            rw [UInt32.lt_iff_toNat_lt, Nat.not_lt] at hfloor
            exact .slot memory arena memory' cursor ptr hsize hmem hseed hptr hfloor

/-- The host's `free`: pops the newest slot if it is the one named, else does nothing. -/
def free (ptr size : Int32) (arena : ArenaState) : ArenaState :=
  if ptr ≤ 0 ∨ size ≤ 0 then arena
  else
    match arena.live with
    | (topPtr, topSize) :: rest =>
      if topPtr = ptr.toUInt32 then
        { arena with live := rest, bumpCursor := some (topPtr + topSize) }
      else arena
    | [] => arena

/-- `free` pops the newest slot, or changes nothing. -/
theorem free_cases (ptr size : Int32) (arena : ArenaState) :
    free ptr size arena = arena ∨
      ∃ topSize rest, arena.live = (ptr.toUInt32, topSize) :: rest ∧
        free ptr size arena =
          { arena with live := rest, bumpCursor := some (ptr.toUInt32 + topSize) } := by
  unfold free
  split
  · exact .inl rfl
  · split
    · rename_i topPtr topSize rest hlive
      split
      · rename_i heq
        subst heq
        exact .inr ⟨topSize, rest, hlive, rfl⟩
      · exact .inl rfl
    · exact .inl rfl

/-- A pointer that is not the newest slot's changes nothing. -/
theorem free_of_ne {ptr : Int32} (size : Int32) {arena : ArenaState}
    (h : ∀ b ∈ arena.live.head?, b.1 ≠ ptr.toUInt32) : free ptr size arena = arena := by
  rcases free_cases ptr size arena with heq | ⟨topSize, rest, hlive, -⟩
  · exact heq
  · exact absurd rfl (h _ (by rw [hlive]; rfl))

/-- One event: a host call, or the guest growing its memory. -/
inductive ArenaOp where
  | alloc (size : Int32) (growOk : Bool)
  | free (ptr size : Int32)
  | grow (pages : Nat)

def HostState.step (s : HostState) : ArenaOp → HostState
  | .alloc size growOk => (Exec.alloc size growOk s).1
  | .free ptr size => { s with arena := Exec.free ptr size s.arena }
  | .grow pages => { s with memory := s.memory.map (Memory.grow · pages) }

/-- The state after a sequence of events. -/
def HostState.run (s : HostState) (ops : List ArenaOp) : HostState := ops.foldl HostState.step s

/-- A fresh store. -/
def HostState.init (memory : Option Memory) : HostState := ⟨ArenaState.default, memory⟩

end TensorWasm.Exec
