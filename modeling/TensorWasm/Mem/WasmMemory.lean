import TensorWasm.Mem.Pool

/-!
# Linear memories of guests

`TensorWasmMemoryCreator` and its two kinds of linear memory, from `tensor-wasm-mem/src/wasm_memory.rs`.
A memory is carved out of the shared slab, or has a buffer of its own when the creator has no pool or
the pool refuses. A buffer of its own is zeroed on the visible window only; what lies behind the window
is whatever the allocator left there, so the model takes those bytes from the environment.

A call of the creator runs its `allocate` or `release` on the pool to the end; between two calls other
users of the pool may have calls of their own in flight.
-/

namespace TensorWasm.Mem

open Lib

/-! ## The pool's calls, uninterrupted -/

/-- `allocate` as one thread alone sees it. -/
def Pool.allocate (p : Pool) (req : Request) : Pool × Except UnifiedError Region :=
  match checkRequest req with
  | .error e => (p, .error e)
  | .ok () =>
    match place p.len req p.bump with
    | .error e => (p, .error e)
    | .ok (offset, newEnd) =>
      let stop := offset + req.size.toNat
      let counted : Pool :=
        { p with
          bump := newEnd
          live := (p.live + 1) % 2 ^ 64
          issuedTotal := min (p.issuedTotal + req.size.toNat) (2 ^ 64 - 1) }
      let zeroed := counted.zero offset (min stop p.carvedHighWater)
      ({ zeroed with
          carvedHighWater := if p.carvedHighWater < stop then stop else p.carvedHighWater },
        .ok ⟨offset, req⟩)

def Pool.release (p : Pool) : Pool := { p with live := p.live - 1 }

def PoolState.allocate (s : PoolState) (req : Request) : PoolState × Except UnifiedError Region :=
  match s.pool.allocate req with
  | (p, .error e) => ({ s with pool := p }, .error e)
  | (p, .ok r) =>
    ({ s with
        pool := p
        owned := r :: s.owned
        handedOut := s.handedOut + 1 },
      .ok r)

def PoolState.release (s : PoolState) (r : Region) : PoolState :=
  { s with
    pool := s.pool.release
    owned := s.owned.erase r
    released := s.released + 1 }

/-! ## One linear memory -/

/-- A `UnifiedBuffer` of a memory's own: the pointer the allocator returned and the bytes behind it. -/
structure FreshBuffer where
  ptr : UInt64
  bytes : Nat → UInt8

def FreshBuffer.zero (b : FreshBuffer) (start stop : Nat) : FreshBuffer :=
  { b with bytes := fun i => if start ≤ i ∧ i < stop then 0 else b.bytes i }

inductive Backing where
  /-- `PooledLinearMemory`: `pool_offset` and `size` are the region's. -/
  | pooled (region : Region)
  /-- `TensorWasmLinearMemory`. -/
  | fresh (buffer : FreshBuffer)

structure LinearMemory where
  backing : Backing
  currentSize : Nat
  maximumSize : Nat

/-- What `as_ptr` returns: a place in the slab, or the pointer of a buffer. -/
inductive Base where
  | slab (offset : Nat)
  | buffer (ptr : UInt64)

namespace LinearMemory

def asPtr (m : LinearMemory) : Base :=
  match m.backing with
  | .pooled r => .slab r.offset
  | .fresh b => .buffer b.ptr

def byteSize (m : LinearMemory) : Nat := m.currentSize

def byteCapacity (m : LinearMemory) : Nat := m.maximumSize

def region (m : LinearMemory) : Option Region :=
  match m.backing with
  | .pooled r => some r
  | .fresh _ => none

/-- The byte at an offset from the base. -/
def byte (p : Pool) (m : LinearMemory) (i : Nat) : UInt8 :=
  match m.backing with
  | .pooled r => p.bytes (r.offset + i)
  | .fresh b => b.bytes i

/-- A store by the guest. Accesses are checked against the visible size; one outside it traps. -/
def write (p : Pool) (m : LinearMemory) (addr : Nat) (value : UInt8) : Pool × LinearMemory :=
  if addr < m.currentSize then
    match m.backing with
    | .pooled r => ({ p with bytes := Function.update p.bytes (r.offset + addr) value }, m)
    | .fresh b => (p, { m with backing := .fresh { b with bytes := Function.update b.bytes addr value } })
  else (p, m)

/-- `grow_to`, the same for both kinds but for where the new bytes are. -/
def growTo (p : Pool) (m : LinearMemory) (newSize : Nat) : (Pool × LinearMemory) × Except String Unit :=
  if newSize > m.maximumSize then
    ((p, m), .error s!"memory.grow requested {newSize} > maximum {m.maximumSize}")
  else if newSize < m.currentSize then
    ((p, m), .error s!"memory.grow cannot shrink ({newSize} < current {m.currentSize})")
  else
    match m.backing with
    | .pooled r =>
      ((p.zero (r.offset + m.currentSize) (r.offset + newSize), { m with currentSize := newSize }), .ok ())
    | .fresh b =>
      ((p, { m with backing := .fresh (b.zero m.currentSize newSize), currentSize := newSize }), .ok ())

end LinearMemory

/-! ## Creating memories -/

def defaultMaxBytes : UInt64 := 268435456

def hardMaxLinearMemoryBytes : UInt64 := 4294967296

def wasmPage : UInt64 := 65536

/-- A declared maximum of exactly the wasm32 ceiling is how an unbounded memory is reported. -/
def effectiveMaxBytes : Option UInt64 → UInt64
  | none => defaultMaxBytes
  | some m => if m = hardMaxLinearMemoryBytes then defaultMaxBytes else m

/-- The arguments of `new_memory`. -/
structure NewMemory where
  minimum : UInt64
  maximum : Option UInt64
  reserved : Option UInt64
  guard : UInt64

/-- The creator: its configured cap, and whether it was given the pool. -/
structure MemoryCreator where
  maxLinearMemoryBytes : UInt64
  pooled : Bool

def MemoryCreator.effectiveMaxLinearMemoryBytes (c : MemoryCreator) : UInt64 :=
  if c.maxLinearMemoryBytes ≤ hardMaxLinearMemoryBytes then c.maxLinearMemoryBytes
  else hardMaxLinearMemoryBytes

/-- The checks of `new_memory`, in order. -/
def MemoryCreator.check (c : MemoryCreator) (a : NewMemory) : Except String UInt64 :=
  let max := effectiveMaxBytes a.maximum
  let minimum := a.minimum
  let hard := hardMaxLinearMemoryBytes
  let cap := c.effectiveMaxLinearMemoryBytes
  if max > hard then
    .error s!"module-declared memory maximum {max} bytes exceeds hard cap {hard} bytes"
  else if minimum > hard then
    .error s!"module-declared memory minimum {minimum} bytes exceeds hard cap {hard} bytes"
  else if minimum > max then .error s!"minimum {minimum} > maximum {max}"
  else if max > cap then
    .error s!"module-declared memory maximum {max} bytes exceeds per-instance cap {cap} bytes"
  else if minimum > cap then
    .error s!"module-declared memory minimum {minimum} bytes exceeds per-instance cap {cap} bytes"
  else if a.guard > 0 then
    .error (s!"TensorWasmMemoryCreator cannot honour guard_size_in_bytes = {a.guard}: " ++
      "managed-memory backings are incompatible with host page guards. " ++
      "Set `Config::memory_guard_size(0)` and " ++
      "`Config::guard_before_linear_memory(false)`, or use the PoolingMpk backend.")
  else
    match a.reserved with
    | none => .ok max
    | some reserved =>
      if reserved > max then
        .error s!"TensorWasmMemoryCreator cannot reserve {reserved} bytes: backing capacity is {max}"
      else .ok max

/-- At least one byte is carved or allocated. -/
def carveSize (max : UInt64) : UInt64 := if max < 1 then 1 else max

/-- `TensorWasmLinearMemory::new_on`, which checks again. The allocator answers with a buffer of
`carveSize max` bytes, or with an error (the tenant's quota among them). -/
def LinearMemory.newOn (minimum : UInt64) (maximum : Option UInt64)
    (allocated : Except String FreshBuffer) : Except String LinearMemory :=
  let max := effectiveMaxBytes maximum
  let hard := hardMaxLinearMemoryBytes
  if max > hard then .error s!"requested {max} bytes exceeds hard cap {hard}"
  else if minimum > hard then .error s!"requested {minimum} bytes exceeds hard cap {hard}"
  else if minimum > max then .error s!"allocation failed: minimum {minimum} > maximum {max}"
  else
    match allocated with
    | .error e => .error e
    | .ok b => .ok ⟨.fresh (b.zero 0 minimum.toNat), minimum.toNat, max.toNat⟩

/-! ## The memories of a process -/

/-- The pool and the live memories, newest first. -/
structure MemoryState where
  pool : PoolState
  memories : List LinearMemory

namespace MemoryState

def init (capacity : Nat) : MemoryState := ⟨PoolState.init capacity, []⟩

def regions (s : MemoryState) : List Region := s.memories.filterMap LinearMemory.region

/-- The fallback of `new_memory`. -/
def newFresh (s : MemoryState) (a : NewMemory) (allocated : Except String FreshBuffer) :
    MemoryState × Except String Unit :=
  match LinearMemory.newOn a.minimum a.maximum allocated with
  | .error e => (s, .error e)
  | .ok m => ({ s with memories := m :: s.memories }, .ok ())

/-- `new_memory`. -/
def newMemory (s : MemoryState) (c : MemoryCreator) (a : NewMemory)
    (allocated : Except String FreshBuffer) : MemoryState × Except String Unit :=
  match c.check a with
  | .error e => (s, .error e)
  | .ok max =>
    if c.pooled then
      match s.pool.allocate ⟨carveSize max, wasmPage⟩ with
      | (pool, .ok r) =>
        ({ pool := pool, memories := ⟨.pooled r, a.minimum.toNat, r.size⟩ :: s.memories }, .ok ())
      | (pool, .error _) => ({ s with pool := pool } : MemoryState).newFresh a allocated
    else s.newFresh a allocated

/-- The state after the memory at a position, and with it the slab, has changed. -/
def replace (s : MemoryState) (i : Nat) (changed : Pool × LinearMemory) : MemoryState :=
  { pool := { s.pool with pool := changed.1 }, memories := s.memories.set i changed.2 }

def write (s : MemoryState) (i addr : Nat) (value : UInt8) : MemoryState :=
  match s.memories[i]? with
  | none => s
  | some m => s.replace i (m.write s.pool.pool addr value)

def growTo (s : MemoryState) (i newSize : Nat) : MemoryState :=
  match s.memories[i]? with
  | none => s
  | some m => s.replace i (m.growTo s.pool.pool newSize).1

/-- `drop`: a pooled memory gives its region back, the bytes stay as they are. -/
def drop (s : MemoryState) (i : Nat) : MemoryState :=
  match s.memories[i]? with
  | none => s
  | some m =>
    let rest := s.memories.eraseIdx i
    match m.backing with
    | .pooled r => { pool := s.pool.release r, memories := rest }
    | .fresh _ => { s with memories := rest }

end MemoryState

/-- The region an action of a pool user is about. -/
def PoolAction.region (s : PoolState) : PoolAction → Option Region
  | .release i => s.owned[i]?
  | .write i _ _ => s.owned[i]?
  | .allocate _ | .advance _ _ | .reset => none

/-- A step by another user of the pool, who holds none of the memories' regions. -/
def MemoryState.other (s : MemoryState) (a : PoolAction) : MemoryState :=
  if ∃ r ∈ s.regions, a.region s.pool = some r then s else { s with pool := s.pool.step a }

inductive MemoryAction where
  | newMemory (creator : MemoryCreator) (args : NewMemory) (allocated : Except String FreshBuffer)
  | write (i addr : Nat) (value : UInt8)
  | growTo (i newSize : Nat)
  | drop (i : Nat)
  | other (a : PoolAction)

def MemoryState.step (s : MemoryState) : MemoryAction → MemoryState
  | .newMemory creator args allocated => (s.newMemory creator args allocated).1
  | .write i addr value => s.write i addr value
  | .growTo i newSize => s.growTo i newSize
  | .drop i => s.drop i
  | .other a => s.other a

def MemoryState.run (s : MemoryState) (schedule : List MemoryAction) : MemoryState :=
  Lib.run MemoryState.step s schedule

end TensorWasm.Mem
