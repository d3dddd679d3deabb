import TensorWasm.Lib.Run
import TensorWasm.Lib.Words

/-!
# The unified memory pool

`UnifiedMemoryPool` of `tensor-wasm-mem/src/pool.rs`: a bump allocator over one slab, shared between
threads without a lock. `allocate` and `release` are cut at their accesses to shared memory; a call
in flight is its arguments, its locals and the access it is about to make, and one step makes that
access. `compare_exchange_weak` may fail although the values agree, so a step takes a flag that says
whether it does. A `usize` is 64 bits wide.

`reset` takes `&mut self`: it runs only when no call is in flight.
-/

namespace TensorWasm.Mem

open Lib

inductive UnifiedError where
  | zeroSize
  | allocation (reason : String)
  | tooLarge (requested limit : Nat)

/-- The arguments of `allocate`. -/
structure Request where
  size : UInt64
  align : UInt64
  deriving DecidableEq

/-- A `PoolAllocation`, with the request it answers. -/
structure Region where
  offset : Nat
  request : Request
  deriving DecidableEq

def Region.size (r : Region) : Nat := r.request.size.toNat

def Region.stop (r : Region) : Nat := r.offset + r.size

/-- The pool's fields, with the slab as its length and its bytes. -/
structure Pool where
  len : Nat
  bytes : Nat → UInt8
  bump : Nat
  live : Nat
  issuedTotal : Nat
  carvedHighWater : Nat

/-- `new_on`: the slab is zero-filled. -/
def Pool.new (capacity : Nat) : Pool :=
  { len := capacity, bytes := fun _ => 0, bump := 0, live := 0, issuedTotal := 0,
    carvedHighWater := 0 }

def maxAlign : Nat := 2 ^ 30

def isPowerOfTwo (n : Nat) : Bool := n == 2 ^ n.log2

def checkedAdd (a b : Nat) : Option Nat := if a + b < 2 ^ 64 then some (a + b) else none

/-- The checks at the head of `allocate`. -/
def checkRequest (req : Request) : Except UnifiedError Unit :=
  let align := req.align.toNat
  if req.size = 0 then .error .zeroSize
  else if align = 0 || !isPowerOfTwo align then
    .error (.allocation s!"alignment {align} is not a non-zero power of two")
  else if align > maxAlign then
    .error (.allocation s!"alignment {align} exceeds maximum {maxAlign}")
  else .ok ()

/-- Where a request goes when the cursor is at `current`: the aligned start and the new cursor. -/
def place (len : Nat) (req : Request) (current : Nat) : Except UnifiedError (Nat × Nat) :=
  match checkedAdd current (req.align.toNat - 1) with
  | none => .error (.allocation "alignment overflow")
  | some v =>
    let aligned := clearBits v (req.align.toNat - 1)
    match checkedAdd aligned req.size.toNat with
    | none => .error (.allocation "offset overflow")
    | some newEnd =>
      if newEnd > len then .error (.tooLarge req.size.toNat len) else .ok (aligned, newEnd)

/-! ## Calls in flight -/

/-- The access an `allocate` call makes next, with the locals it still needs. -/
inductive AllocatePc where
  | enter
  | loadBump
  | casBump (current aligned newEnd : Nat)
  | countLive (offset : Nat)
  | loadIssued (offset : Nat)
  | casIssued (offset issued : Nat)
  | loadHighWater (offset : Nat)
  | zeroRecycled (offset highWater : Nat)
  | casHighWater (offset hw : Nat)

inductive ReleasePc where
  | loadLive
  | casLive (current : Nat)

inductive Call where
  | allocate (req : Request) (pc : AllocatePc)
  | release (region : Region) (pc : ReleasePc)

/-- What a step of a call leads to. -/
inductive Progress where
  | running (c : Call)
  | allocated (r : Region)
  | refused (e : UnifiedError)
  | released

/-- `ptr::write_bytes` of zeros. -/
def Pool.zero (p : Pool) (start stop : Nat) : Pool :=
  { p with bytes := fun i => if start ≤ i ∧ i < stop then 0 else p.bytes i }

/-- One access of an `allocate` call. -/
def allocateStep (p : Pool) (spurious : Bool) (req : Request) : AllocatePc → Pool × Progress
  | .enter =>
    match checkRequest req with
    | .error e => (p, .refused e)
    | .ok () => (p, .running (.allocate req .loadBump))
  | .loadBump =>
    match place p.len req p.bump with
    | .error e => (p, .refused e)
    | .ok (aligned, newEnd) => (p, .running (.allocate req (.casBump p.bump aligned newEnd)))
  | .casBump current aligned newEnd =>
    if p.bump = current ∧ !spurious then
      ({ p with bump := newEnd }, .running (.allocate req (.countLive aligned)))
    else (p, .running (.allocate req .loadBump))
  | .countLive offset =>
    ({ p with live := (p.live + 1) % 2 ^ 64 }, .running (.allocate req (.loadIssued offset)))
  | .loadIssued offset => (p, .running (.allocate req (.casIssued offset p.issuedTotal)))
  | .casIssued offset issued =>
    if p.issuedTotal = issued ∧ !spurious then
      ({ p with issuedTotal := min (issued + req.size.toNat) (2 ^ 64 - 1) },
        .running (.allocate req (.loadHighWater offset)))
    else (p, .running (.allocate req (.casIssued offset p.issuedTotal)))
  | .loadHighWater offset =>
    (p, .running (.allocate req (.zeroRecycled offset p.carvedHighWater)))
  | .zeroRecycled offset highWater =>
    -- an empty range when the carve starts at or above the mark
    (p.zero offset (min (offset + req.size.toNat) highWater),
      .running (.allocate req (.casHighWater offset highWater)))
  | .casHighWater offset hw =>
    let stop := offset + req.size.toNat
    if hw < stop then
      if p.carvedHighWater = hw ∧ !spurious then
        ({ p with carvedHighWater := stop }, .allocated ⟨offset, req⟩)
      else (p, .running (.allocate req (.casHighWater offset p.carvedHighWater)))
    else (p, .allocated ⟨offset, req⟩)

/-- One access of a `release` call; `saturating_sub` is truncated subtraction. -/
def releaseStep (p : Pool) (spurious : Bool) (region : Region) : ReleasePc → Pool × Progress
  | .loadLive => (p, .running (.release region (.casLive p.live)))
  | .casLive current =>
    if p.live = current ∧ !spurious then ({ p with live := current - 1 }, .released)
    else (p, .running (.release region (.casLive p.live)))

def Call.step (p : Pool) (spurious : Bool) : Call → Pool × Progress
  | .allocate req pc => allocateStep p spurious req pc
  | .release region pc => releaseStep p spurious region pc

/-- `reset`, given the exclusive reference it needs. -/
def Pool.reset (p : Pool) : Except UnifiedError Pool :=
  if p.live ≠ 0 then
    .error (.allocation s!"cannot reset: {p.live} live allocations outstanding")
  else .ok { p with bump := 0 }

/-! ## The pool and its callers -/

/-- The pool, the calls in flight, and the regions handed out and not being released. The two
counters record how many regions `allocate` has returned and `release` has counted off. -/
structure PoolState where
  pool : Pool
  calls : List Call
  owned : List Region
  handedOut : Nat
  released : Nat

def PoolState.init (capacity : Nat) : PoolState := ⟨Pool.new capacity, [], [], 0, 0⟩

/-- What a schedule picks next. Calls and regions are picked by position. -/
inductive PoolAction where
  | allocate (req : Request)
  | release (i : Nat)
  | advance (i : Nat) (spurious : Bool)
  | write (i offset : Nat) (value : UInt8)
  | reset

/-- The state after a call, taken out of `calls`, has made its step. -/
def PoolState.settle (s : PoolState) (rest : List Call) : Pool × Progress → PoolState
  | (p, .running c) => { s with pool := p, calls := c :: rest }
  | (p, .allocated r) =>
    { s with pool := p, calls := rest, owned := r :: s.owned, handedOut := s.handedOut + 1 }
  | (p, .refused _) => { s with pool := p, calls := rest }
  | (p, .released) => { s with pool := p, calls := rest, released := s.released + 1 }

/-- One step of a schedule. An action that is not possible changes nothing: a call or region that
is not there, a write outside a region, a `reset` with a call in flight. -/
def PoolState.step (s : PoolState) : PoolAction → PoolState
  | .allocate req => { s with calls := .allocate req .enter :: s.calls }
  | .release i =>
    match s.owned[i]? with
    | none => s
    | some r => { s with owned := s.owned.eraseIdx i, calls := .release r .loadLive :: s.calls }
  | .advance i spurious =>
    match s.calls[i]? with
    | none => s
    | some c => s.settle (s.calls.eraseIdx i) (c.step s.pool spurious)
  | .write i offset value =>
    match s.owned[i]? with
    | none => s
    | some r =>
      if offset < r.size then
        { s with pool := { s.pool with
            bytes := Function.update s.pool.bytes (r.offset + offset) value } }
      else s
  | .reset =>
    if s.calls = [] then
      match s.pool.reset with
      | .error _ => s
      | .ok p => { s with pool := p }
    else s

def PoolState.run (s : PoolState) (schedule : List PoolAction) : PoolState :=
  Lib.run PoolState.step s schedule

end TensorWasm.Mem
