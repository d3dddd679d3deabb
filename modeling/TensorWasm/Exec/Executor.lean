import Mathlib.Data.List.AList
import TensorWasm.Exec.AutoOffload
import TensorWasm.Lib.Prog

/-!
# The executor's instances

`TensorWasmExecutor` of `tensor-wasm-exec`, as far as it admits, builds, registers, calls and removes
instances. The async functions are programs: every access to a shared counter, map or channel is one atomic
action, and so is every compile, instantiation or call that is waited for. How such a wait ends is decided by
the outside. Durations are numbers of nanoseconds; counters and ids are numbers without a largest one, but for
the count of warm instances, which a draw may take below zero before the instance it drew is counted.

The module cache is behind one lock. Its single-flight cells are left out: they spare a second compile of the
same bytes.
-/

namespace TensorWasm.Executor

open Lib
open Wasm (Module)
open Jit (DetectorConfig)
open Prog (access change consult)

abbrev TenantId := UInt64

abbrev InstanceId := Nat

/-- A BLAKE3 digest. -/
abbrev ModuleHash := Bytes

abbrev Duration := Nat

/-- A `TensorWasmInstance`, which is moved and never copied. -/
abbrev InstanceRef := Nat

/-- The sender of a stream, known by its channel. -/
abbrev StreamingContext := Nat

structure SpawnConfig where
  tenantId : TenantId
  deadline : Option Duration
  streaming : Option StreamingContext
  input : Bytes
  deriving DecidableEq

inductive ExecError
  | wasmtime (msg : String)
  | notFound (id : InstanceId)
  | missingExport (name : String)
  | timeout (id : InstanceId) (elapsedMs deadlineMs : Nat)
  | moduleMemoryTooLarge (requestedBytes limitBytes : Nat)
  | capacityExhausted (active limit : Nat)
  | tenantCapacityExhausted (tenant : TenantId) (active limit : Nat)
  | moduleTooLarge (len max : Nat)
  | epochTickerNotRunning
  | unsupportedReturnType (kind : String)

/-- How something that is waited for ends: the error it comes back with, if any, and whether a reset took
longer than `POOL_RESET_DEADLINE`. -/
structure Fate where
  failure : Option ExecError
  slow : Bool

/-! ## The state -/

/-- The parts of an instance and its `InstanceState` that the executor reads or writes. -/
structure Instance where
  tenantId : TenantId
  instanceId : InstanceId
  deadlineDuration : Option Duration
  streaming : Option StreamingContext
  input : Bytes
  module : Module
  /-- How many calls of an export were begun. -/
  calls : Nat
  /-- Clones of the registry's `Arc` that calls hold. -/
  handles : Nat

structure RegistryEntry where
  inst : InstanceRef
  tenantId : TenantId
  deriving DecidableEq

structure PoolKey where
  tenantId : TenantId
  moduleHash : ModuleHash
  deriving DecidableEq

/-- An allocation of a channel, named by the key it was made for and a number. -/
structure ChannelRef where
  key : PoolKey
  number : Nat
  deriving DecidableEq

structure Channel where
  capacity : Nat
  queue : List InstanceRef

/-- What is behind an `Arc<PoolEntry>`; nothing of it changes but the channel. -/
structure PoolEntry where
  channel : ChannelRef
  module : Module

/-- An allocation of a `OnceCell`, named like a channel. -/
structure CellRef where
  key : PoolKey
  number : Nat
  deriving DecidableEq

inductive OnceCell
  | empty
  | initialising
  | set (entry : PoolEntry)

/-- The two counts that admit an instance. -/
structure Slots where
  instanceCount : Nat
  tenantCounts : AList fun _ : TenantId => Nat

/-- The pool's own counters. -/
structure PoolStats where
  warmTotal : UInt64
  drawsTotal : Nat
  hitCount : Nat
  missCount : Nat
  dropsTotal : Nat

/-- For the record: an instance was put into the registry for a caller. -/
structure Served where
  id : InstanceId
  inst : InstanceRef
  /-- As it was at that moment. -/
  snapshot : Instance
  caller : SpawnConfig
  wasm : Module

/-- For the record: a call was run for a caller under a budget. -/
structure CallRecord where
  caller : SpawnConfig
  budget : Option Duration
  deriving DecidableEq

structure State where
  slots : Slots
  moduleCache : List (ModuleHash × Module)
  nextInstanceId : InstanceId
  registry : AList fun _ : InstanceId => RegistryEntry
  /-- Every instance that was ever made. -/
  heap : List Instance
  pools : AList fun _ : PoolKey => PoolEntry
  inflight : AList fun _ : PoolKey => CellRef
  cells : AList fun _ : CellRef => OnceCell
  channels : AList fun _ : ChannelRef => Channel
  /-- How many channels and cells were made. -/
  allocated : Nat
  stats : PoolStats
  served : List Served
  callLog : List CallRecord

def State.new : State where
  slots := ⟨0, ∅⟩
  moduleCache := []
  nextInstanceId := 1
  registry := ∅
  heap := []
  pools := ∅
  inflight := ∅
  cells := ∅
  channels := ∅
  allocated := 0
  stats := ⟨0, 0, 0, 0, 0⟩
  served := []
  callLog := []

/-! ## Parts of the state -/

def Slots.decrementTenantCount (slots : Slots) (tenant : TenantId) : Slots :=
  match slots.tenantCounts.lookup tenant with
  | some v =>
    if v - 1 = 0 then { slots with tenantCounts := slots.tenantCounts.erase tenant }
    else { slots with tenantCounts := slots.tenantCounts.insert tenant (v - 1) }
  | none => slots

/-- Under the entry's lock: the new count, and whether it was taken. -/
def Slots.chargeTenant (slots : Slots) (tenant : TenantId) (perTenantMax : Nat) : (Nat × Bool) × Slots :=
  let newTenantCount := (slots.tenantCounts.lookup tenant).getD 0 + 1
  if perTenantMax < newTenantCount then
    -- `or_insert(0)` has made an entry
    ((newTenantCount, false),
      { slots with tenantCounts := slots.tenantCounts.insert tenant (newTenantCount - 1) })
  else
    ((newTenantCount, true), { slots with tenantCounts := slots.tenantCounts.insert tenant newTenantCount })

/-- A new instance is bound to what its configuration says, and to nothing else. -/
def Instance.new (cfg : SpawnConfig) (module : Module) : Instance where
  tenantId := cfg.tenantId
  instanceId := 0
  deadlineDuration := cfg.deadline
  streaming := cfg.streaming
  input := cfg.input
  module := module
  calls := 0
  handles := 0

/-- Put an instance under an id that is vacant, with the id written into it. -/
def State.enter (s : State) (id : InstanceId) (inst : InstanceRef) (snapshot : Instance)
    (caller : SpawnConfig) (wasm : Module) : State :=
  { s with
    heap := s.heap.set inst { snapshot with instanceId := id }
    registry := s.registry.insert id ⟨inst, snapshot.tenantId⟩
    served := ⟨id, inst, snapshot, caller, wasm⟩ :: s.served }

def State.changeHandles (s : State) (inst : InstanceRef) (f : Nat → Nat) : State :=
  { s with heap := s.heap.modify inst fun i => { i with handles := f i.handles } }

/-! ## Configuration -/

structure EngineConfig where
  maxInstances : Option Nat
  maxInstancesPerTenant : Option Nat
  maxCallDuration : Option Duration
  maxModuleCacheEntries : Nat
  autoOffload : Bool
  autoOffloadDetector : Option DetectorConfig

structure InstancePoolConfig where
  warmInstancesPerTuple : Nat
  maxTotalWarm : UInt64

/-- What does not change while an executor is used. A module is given parsed; `bytesOf` are the bytes it was
submitted as. -/
structure TensorWasmExecutor where
  config : EngineConfig
  jitCache : Bool
  pool : Option InstancePoolConfig
  blake3 : Bytes → Bytes
  bytesOf : Module → Bytes
  reencoder : Wasm.Driver Jit.RewriterState

abbrev Action := Prog Fate State

abbrev Fallible := ExceptT ExecError (Prog Fate State)

/-- Wait for something that may fail and has no other effect on the state. -/
def checked : Fallible Unit :=
  ExceptT.mk (consult fun fate s =>
    (match fate.failure with | some e => .error e | none => .ok (), s))

namespace TensorWasmExecutor

variable (x : TensorWasmExecutor)

def moduleHash (wasm : Module) : ModuleHash := x.blake3 (x.bytesOf wasm)

/-! ## Admission -/

def changeSlots (f : Slots → Slots) : Action Unit := change fun s => { s with slots := f s.slots }

def countUp : Action Nat :=
  access fun s =>
    (s.slots.instanceCount + 1,
      { s with slots := { s.slots with instanceCount := s.slots.instanceCount + 1 } })

def countDown : Action Unit :=
  changeSlots fun slots => { slots with instanceCount := slots.instanceCount - 1 }

def decrementTenantCount (tenant : TenantId) : Action Unit :=
  changeSlots fun slots => slots.decrementTenantCount tenant

/-- The engine-wide ceiling: the count is raised first, and lowered again if it went over. -/
def chargeEngine : Fallible Unit := do
  let newCount ← countUp
  match x.config.maxInstances with
  | some max =>
    if max < newCount then
      countDown
      throw (.capacityExhausted newCount max)
    else return ()
  | none => return ()

/-- The fairness cap of a tenant; a refusal takes back the engine-wide charge. -/
def chargeTenant (tenant : TenantId) : Fallible Unit :=
  match x.config.maxInstancesPerTenant with
  | none => return ()
  | some perTenantMax => do
    let (newTenantCount, taken) ← (access fun s =>
      ((s.slots.chargeTenant tenant perTenantMax).1,
        { s with slots := (s.slots.chargeTenant tenant perTenantMax).2 }) : Action (Nat × Bool))
    if taken then return ()
    else
      countDown
      throw (.tenantCapacityExhausted tenant newTenantCount perTenantMax)

def chargeInstanceSlot (tenant : TenantId) : Fallible Unit := do
  x.chargeEngine
  x.chargeTenant tenant

/-- An `InstanceSlotGuard` that is dropped before `commit`. -/
def rollBack (tenant : TenantId) : Action Unit := do
  countDown
  if x.config.maxInstancesPerTenant.isSome then decrementTenantCount tenant

/-- Run under an `InstanceSlotGuard` for a slot that is charged; success commits. -/
def slotGuarded {α : Type} (tenant : TenantId) (body : Fallible α) : Fallible α :=
  ExceptT.mk do
    match ← body.run with
    | .ok a => return .ok a
    | .error e =>
      x.rollBack tenant
      return .error e

def releaseInstanceSlot (tenant : TenantId) : Action Unit := do
  countDown
  decrementTenantCount tenant

/-! ## Building an instance -/

/-- `LruCache::get`, with the most recent entry first. -/
def cacheGet (key : ModuleHash) : Action (Option Module) :=
  access fun s =>
    match s.moduleCache.find? (·.1 = key) with
    | some (_, module) =>
      (some module, { s with moduleCache := (key, module) :: s.moduleCache.filter (·.1 ≠ key) })
    | none => (none, s)

/-- `LruCache::put`; a capacity of zero is taken as one. -/
def cachePut (key : ModuleHash) (module : Module) : Action Unit :=
  change fun s =>
    { s with
      moduleCache := ((key, module) :: s.moduleCache.filter (·.1 ≠ key)).take
        (max x.config.maxModuleCacheEntries 1) }

/-- The size check, the cache, and the compile if there is need for it. -/
def compileModuleCachedWithHash (wasm : Module) (key : ModuleHash) : Fallible Module := do
  checked
  match ← cacheGet key with
  | some module => return module
  | none =>
    checked
    x.cachePut key wasm
    return wasm

/-- `instantiate_detached`: the ticker, the memory cap and wasmtime may each refuse. -/
def instantiateDetached (cfg : SpawnConfig) (module : Module) : Fallible InstanceRef :=
  ExceptT.mk (consult fun fate s =>
    match fate.failure with
    | some e => (.error e, s)
    | none => (.ok s.heap.length, { s with heap := s.heap ++ [Instance.new cfg module] }))

/-- The raw memory check comes before the slot is charged. -/
def buildPooledInstanceWithHash (cfg : SpawnConfig) (wasm : Module) (hash : ModuleHash) :
    Fallible (InstanceRef × Module) := do
  checked
  x.chargeInstanceSlot cfg.tenantId
  x.slotGuarded cfg.tenantId do
    let module ← x.compileModuleCachedWithHash wasm hash
    let inst ← instantiateDetached cfg module
    return (inst, module)

def rebuildPooledFromModule (cfg : SpawnConfig) (module : Module) : Fallible InstanceRef := do
  x.chargeInstanceSlot cfg.tenantId
  x.slotGuarded cfg.tenantId (instantiateDetached cfg module)

/-! ## The registry -/

/-- The counter never comes back to an id that is in use, so the first try succeeds. -/
def allocateInstanceId : Action InstanceId :=
  access fun s => (s.nextInstanceId, { s with nextInstanceId := s.nextInstanceId + 1 })

/-- `register_pooled_instance`. The caller and the module it submitted are for the record only. An instance
that is at hand is on the heap, so nothing is waited for. -/
def registerPooledInstance (inst : InstanceRef) (caller : SpawnConfig) (wasm : Module) :
    Fallible InstanceId := do
  let id ← allocateInstanceId
  ExceptT.mk (Prog.await fun s =>
    match s.heap[inst]? with
    | some snapshot =>
      if id ∈ s.registry then
        some (.error (.wasmtime "instance id collision after allocation"), s)
      else some (.ok id, s.enter id inst snapshot caller wasm)
    | none => none)

/-- `spawn_instance`: the module is rewritten first if offloading is on, and the slot is guarded again
until the instance is registered. -/
def spawnInstance (cfg : SpawnConfig) (wasm : Module) : Fallible InstanceId := do
  let effectiveWasm := Exec.maybeRewriteForOffload x.reencoder x.blake3 x.config.autoOffload x.jitCache
    (x.config.autoOffloadDetector.getD .default) cfg.tenantId wasm
  let (inst, _) ← x.buildPooledInstanceWithHash cfg effectiveWasm (x.moduleHash effectiveWasm)
  x.slotGuarded cfg.tenantId (registerPooledInstance inst cfg wasm)

def removeEntry (id : InstanceId) : Action (Option RegistryEntry) :=
  access fun s => (s.registry.lookup id, { s with registry := s.registry.erase id })

/-- `Arc::try_unwrap` on the handle that was in the registry. -/
def tryUnwrap (inst : InstanceRef) : Action Bool :=
  Prog.read fun s => s.heap[inst]?.all (·.handles = 0)

/-- The slot stays charged for an instance that is moved out, and is released for one that a call still
holds. -/
def detachPooledInstance (id : InstanceId) : Action (Option InstanceRef) := do
  match ← removeEntry id with
  | none => return none
  | some entry =>
    if ← tryUnwrap entry.inst then return some entry.inst
    else
      x.rollBack entry.tenantId
      return none

def terminate (id : InstanceId) : Fallible Unit := do
  match ← (removeEntry id : Action (Option RegistryEntry)) with
  | none => throw (.notFound id)
  | some entry => x.rollBack entry.tenantId

/-! ## Calls -/

def effectiveCallBudget (perCall : Option Duration) : Option Duration :=
  match perCall, x.config.maxCallDuration with
  | some a, some b => some (min a b)
  | some a, none => some a
  | none, some b => some b
  | none, none => none

/-- Clone the handle of a registered instance. -/
def cloneHandle (id : InstanceId) : Action (Option InstanceRef) :=
  access fun s =>
    match s.registry.lookup id with
    | some entry => (some entry.inst, s.changeHandles entry.inst (· + 1))
    | none => (none, s)

def dropHandle (inst : InstanceRef) : Action Unit := change fun s => s.changeHandles inst (· - 1)

/-- The call itself, under the lock of the instance: its budget is armed and the export runs. -/
def runExport (inst : InstanceRef) (caller : SpawnConfig) : Action (Except ExecError Unit) :=
  consult fun fate s =>
    (match fate.failure with | some e => .error e | none => .ok (),
      { s with
        heap := s.heap.modify inst fun i => { i with calls := i.calls + 1 }
        callLog := (s.heap[inst]?.map fun i => ⟨caller, x.effectiveCallBudget i.deadlineDuration⟩).toList
          ++ s.callLog })

/-- `call_export_with_args`. The caller is for the record only. -/
def callExportWithArgs (id : InstanceId) (caller : SpawnConfig) : Fallible Unit :=
  ExceptT.mk do
    match ← cloneHandle id with
    | none => return .error (.notFound id)
    | some inst =>
      let outcome ← x.runExport inst caller
      dropHandle inst
      return outcome

/-- The instance is terminated whatever the call has come to. -/
def callExportWithArgsThenTerminate (id : InstanceId) (caller : SpawnConfig) : Fallible Unit :=
  ExceptT.mk do
    let outcome ← (x.callExportWithArgs id caller).run
    let _ ← (x.terminate id).run
    return outcome

end TensorWasmExecutor

end TensorWasm.Executor
