import TensorWasm.Exec.Executor

/-!
# The warm pool

`instance_pool.rs` of `tensor-wasm-exec`: a bounded channel of instances for each tenant and module. An
acquire draws from the channel or spawns; a release drops the instance and puts a new one in its place. The
first acquire for a key builds the channel under a `OnceCell`.
-/

namespace TensorWasm.Executor

open Lib
open Wasm (Module)
open Prog (access change)

structure PooledInstance where
  id : InstanceId
  /-- The module hash, unless the instance may not come back to a channel. -/
  origin : Option ModuleHash

/-! ## Channels, maps and counters -/

def changeStats (f : PoolStats → PoolStats) : Action Unit :=
  change fun s => { s with stats := f s.stats }

def countDraw : Action Unit := changeStats fun st => { st with drawsTotal := st.drawsTotal + 1 }

def countHit : Action Unit := changeStats fun st => { st with hitCount := st.hitCount + 1 }

def countMiss : Action Unit := changeStats fun st => { st with missCount := st.missCount + 1 }

def countDrop : Action Unit := changeStats fun st => { st with dropsTotal := st.dropsTotal + 1 }

def warmUp : Action Unit := changeStats fun st => { st with warmTotal := st.warmTotal + 1 }

/-- `fetch_sub` wraps around. -/
def warmDown : Action Unit := changeStats fun st => { st with warmTotal := st.warmTotal - 1 }

/-- `bounded`. -/
def newChannel (key : PoolKey) (capacity : Nat) : Action ChannelRef :=
  access fun s =>
    (⟨key, s.allocated⟩,
      { s with channels := s.channels.insert ⟨key, s.allocated⟩ ⟨capacity, []⟩, allocated := s.allocated + 1 })

/-- `try_send`: whether there was room. -/
def trySend (channel : ChannelRef) (inst : InstanceRef) : Action Bool :=
  access fun s =>
    match s.channels.lookup channel with
    | some c =>
      if c.queue.length < c.capacity then
        (true, { s with channels := s.channels.insert channel { c with queue := c.queue ++ [inst] } })
      else (false, s)
    | none => (false, s)

/-- `try_recv`. -/
def tryRecv (channel : ChannelRef) : Action (Option InstanceRef) :=
  access fun s =>
    match s.channels.lookup channel with
    | some ⟨capacity, inst :: queue⟩ =>
      (some inst, { s with channels := s.channels.insert channel ⟨capacity, queue⟩ })
    | _ => (none, s)

def poolsGet (key : PoolKey) : Action (Option PoolEntry) := Prog.read fun s => s.pools.lookup key

def poolsInsert (key : PoolKey) (entry : PoolEntry) : Action Unit :=
  change fun s => { s with pools := s.pools.insert key entry }

/-- `entry(key).or_insert_with(..)` on the map of cells. -/
def inflightCell (key : PoolKey) : Action CellRef :=
  access fun s =>
    match s.inflight.lookup key with
    | some cell => (cell, s)
    | none =>
      (⟨key, s.allocated⟩,
        { s with
          inflight := s.inflight.insert key ⟨key, s.allocated⟩
          cells := s.cells.insert ⟨key, s.allocated⟩ .empty
          allocated := s.allocated + 1 })

def inflightRemove (key : PoolKey) : Action Unit :=
  change fun s => { s with inflight := s.inflight.erase key }

/-- Wait while another task initialises the cell; then take its value, or the right to initialise it. -/
def enterCell (cell : CellRef) : Action (Option PoolEntry) :=
  Prog.await fun s =>
    match s.cells.lookup cell with
    | some (.set entry) => some (some entry, s)
    | some .initialising => none
    | _ => some (none, { s with cells := s.cells.insert cell .initialising })

def leaveCell (cell : CellRef) (value : OnceCell) : Action Unit :=
  change fun s => { s with cells := s.cells.insert cell value }

/-- `get_or_try_init`. -/
def getOrTryInit (cell : CellRef) (init : Fallible PoolEntry) : Fallible PoolEntry :=
  ExceptT.mk do
    match ← enterCell cell with
    | some entry => return .ok entry
    | none =>
      match ← init.run with
      | .ok entry =>
        leaveCell cell (.set entry)
        return .ok entry
      | .error e =>
        leaveCell cell .empty
        return .error e

/-- Release the slot of an instance that is dropped. -/
def Slots.release (slots : Slots) (tenant : TenantId) : Slots :=
  Slots.decrementTenantCount { slots with instanceCount := slots.instanceCount - 1 } tenant

/-- Take one channel empty: each instance is dropped with its slot. -/
def State.drain (s : State) (key : PoolKey) (entry : PoolEntry) : State :=
  match s.channels.lookup entry.channel with
  | some c =>
    { s with
      channels := s.channels.insert entry.channel { c with queue := [] }
      slots := c.queue.foldl (fun slots _ => slots.release key.tenantId) s.slots
      stats := { s.stats with
        warmTotal := s.stats.warmTotal - .ofNat c.queue.length
        dropsTotal := s.stats.dropsTotal + c.queue.length } }
  | none => s

namespace TensorWasmExecutor

variable (x : TensorWasmExecutor) (pool : InstancePoolConfig)

/-! ## Building the entry of a key -/

def channelCapacity : Nat := max pool.warmInstancesPerTuple 1

def warmCapReached : Action Bool :=
  Prog.read fun s => 0 < pool.maxTotalWarm && pool.maxTotalWarm ≤ s.stats.warmTotal

/-- Put a new instance into the channel that is being filled. -/
def stock (cfg : SpawnConfig) (channel : ChannelRef) (inst : InstanceRef) : Action Unit := do
  if ← trySend channel inst then warmUp
  else releaseInstanceSlot cfg.tenantId

/-- The pre-spawn loop, with the number of rounds left. The first instance brings the compiled module along.
An error leaves with what is in the channel. -/
def prewarm (cfg : SpawnConfig) (wasm : Module) (channel : ChannelRef) :
    Nat → Option Module → Fallible (Option Module)
  | 0, module => return module
  | n + 1, module => do
    if ← (warmCapReached pool : Action Bool) then return module
    else
      match module with
      | none =>
        let (inst, module) ← x.buildPooledInstanceWithHash cfg wasm channel.key.moduleHash
        stock cfg channel inst
        prewarm cfg wasm channel n (some module)
      | some module =>
        let inst ← x.rebuildPooledFromModule cfg module
        stock cfg channel inst
        prewarm cfg wasm channel n (some module)

/-- The module, for an entry that no instance was built for: one is built and dropped. -/
def moduleOnly (cfg : SpawnConfig) (wasm : Module) (hash : ModuleHash) : Fallible Module := do
  let (_, module) ← x.buildPooledInstanceWithHash cfg wasm hash
  releaseInstanceSlot cfg.tenantId
  return module

def buildEntry (cfg : SpawnConfig) (wasm : Module) (key : PoolKey) : Fallible PoolEntry := do
  let channel ← newChannel key (channelCapacity pool)
  let module ← match ← x.prewarm pool cfg wasm channel pool.warmInstancesPerTuple none with
    | some module => pure module
    | none => x.moduleOnly cfg wasm key.moduleHash
  poolsInsert key ⟨channel, module⟩
  return ⟨channel, module⟩

def ensureEntry (cfg : SpawnConfig) (wasm : Module) (key : PoolKey) : Fallible PoolEntry := do
  match ← (poolsGet key : Action (Option PoolEntry)) with
  | some entry => return entry
  | none =>
    let cell ← inflightCell key
    let entry ← getOrTryInit cell (x.buildEntry pool cfg wasm key)
    inflightRemove key
    return entry

/-! ## Acquire and release -/

/-- A draw that is not served from a channel. -/
def missSpawn (cfg : SpawnConfig) (wasm : Module) (origin : Option ModuleHash) :
    Fallible PooledInstance := do
  countMiss
  let id ← x.spawnInstance cfg wasm
  return ⟨id, origin⟩

/-- Streams and inputs belong to one call, so neither is served from a channel. -/
def acquire (cfg : SpawnConfig) (wasm : Module) : Fallible PooledInstance := do
  countDraw
  if cfg.streaming.isSome then x.missSpawn cfg wasm none
  else if !cfg.input.isEmpty then x.missSpawn cfg wasm none
  else
    let hash := x.moduleHash wasm
    let entry ← x.ensureEntry pool cfg wasm ⟨cfg.tenantId, hash⟩
    match ← (tryRecv entry.channel : Action (Option InstanceRef)) with
    | some inst =>
      warmDown
      countHit
      let id ← registerPooledInstance inst cfg wasm
      return ⟨id, some hash⟩
    | none => x.missSpawn cfg wasm (some hash)

/-- Whether the reset took too long. -/
def resetOverran : Action Bool := Prog.consult fun fate s => (fate.slow, s)

/-- Drop a replacement that has a slot. -/
def dropReplacement (cfg : SpawnConfig) : Action Unit := do
  releaseInstanceSlot cfg.tenantId
  countDrop

/-- Put a new instance into the channel, in the place of one that was released. -/
def replenish (cfg : SpawnConfig) (entry : PoolEntry) : Action Unit := do
  match ← (x.rebuildPooledFromModule cfg entry.module).run with
  | .error _ => countDrop
  | .ok replacement =>
    if ← resetOverran then dropReplacement cfg
    else if ← trySend entry.channel replacement then warmUp
    else dropReplacement cfg

def release (pooled : PooledInstance) (cfg : SpawnConfig) : Action Unit := do
  match ← x.detachPooledInstance pooled.id with
  | none => return ()
  | some _ =>
    releaseInstanceSlot cfg.tenantId
    match if cfg.streaming.isSome then none else pooled.origin with
    | none => countDrop
    | some hash =>
      match ← poolsGet ⟨cfg.tenantId, hash⟩ with
      | none => countDrop
      | some entry =>
        if ← warmCapReached pool then countDrop
        else x.replenish cfg entry

/-- `shutdown`, with each channel taken empty at once. -/
def shutdown : Action Unit :=
  change fun s => s.pools.entries.foldl (fun s e => s.drain e.1 e.2) s

/-- `invoke`: through the pool, or with an instance of its own. -/
def invoke (cfg : SpawnConfig) (wasm : Module) : Fallible Unit :=
  match x.pool with
  | some pool => do
    let pooled ← x.acquire pool cfg wasm
    ExceptT.mk do
      let result ← (x.callExportWithArgs pooled.id cfg).run
      x.release pool pooled cfg
      return result
  | none => do
    let id ← x.spawnInstance cfg wasm
    x.callExportWithArgsThenTerminate id cfg

end TensorWasmExecutor

/-! ## One operation at a time -/

/-- What is asked of an executor with a pool. A call holds a handle from its beginning to its end. -/
inductive Op
  | spawn (cfg : SpawnConfig) (wasm : Module)
  | acquire (cfg : SpawnConfig) (wasm : Module)
  | release (pooled : PooledInstance) (cfg : SpawnConfig)
  | terminate (id : InstanceId)
  | shutdown
  | beginCall (id : InstanceId)
  | endCall (inst : InstanceRef)

namespace Op

open TensorWasmExecutor in
def program (x : TensorWasmExecutor) (pool : InstancePoolConfig) : Op → Fallible Unit
  | spawn cfg wasm => do let _ ← x.spawnInstance cfg wasm
  | acquire cfg wasm => do let _ ← x.acquire pool cfg wasm
  | release pooled cfg => liftM (x.release pool pooled cfg)
  | terminate id => x.terminate id
  | shutdown => liftM (TensorWasmExecutor.shutdown : Action Unit)
  | beginCall id => do let _ ← (cloneHandle id : Action (Option InstanceRef))
  | endCall inst => liftM (dropHandle inst : Action Unit)

/-- Alone, with what the outside decides meanwhile. -/
def exec (x : TensorWasmExecutor) (pool : InstancePoolConfig) (op : Op) (env : Nat → Fate) (s : State) :
    Option (Except ExecError Unit × State) :=
  (op.program x pool).run.exec env s

end Op

/-- The state after an operation. -/
def State.after (x : TensorWasmExecutor) (pool : InstancePoolConfig) (s : State) (turn : Op × (Nat → Fate)) :
    State :=
  match turn.1.exec x pool turn.2 s with
  | some (_, s') => s'
  | none => s

end TensorWasm.Executor
