import Mathlib.Data.List.AList
import TensorWasm.Lib.Counter
import TensorWasm.WasiGpu.Abi

/-!
# Device-memory registries

`device_mem.rs` of `tensor-wasm-wasi-gpu`: a registry of device buffers for each instance, and the one budget
of the process that every registry charges. The budget is shared, so it is passed along with the registry.
A process is the budget with the registries that are alive; dropping a registry is what the compiler makes
of it, since there is no `Drop` for it.
-/

namespace TensorWasm.WasiGpu

open Lib

abbrev InstanceId := BitVec 128

def maxDeviceAllocBytes : UInt64 := 256 * 1024 * 1024

def maxDeviceAllocsPerInstance : Nat := 4096

def maxTotalDeviceBytes : UInt64 := 16 * maxDeviceAllocBytes

def maxProcessDeviceBytes : UInt64 := 4 * maxTotalDeviceBytes

def maxProcessDeviceAllocs : Nat := 4 * maxDeviceAllocsPerInstance

/-! ## The budget of the process -/

structure DeviceMemBudget where
  totalBytes : UInt64
  totalAllocs : UInt64
  deriving DecidableEq

namespace DeviceMemBudget

def new : DeviceMemBudget := ⟨0, 0⟩

variable (budget : DeviceMemBudget)

def countUp : DeviceMemBudget := { budget with totalAllocs := budget.totalAllocs + 1 }

def countDown : DeviceMemBudget := { budget with totalAllocs := budget.totalAllocs - 1 }

/-- The count is raised first, and lowered again if either cap stands in the way. -/
def tryReserve (size : UInt64) : Except AbiError Unit × DeviceMemBudget :=
  if maxProcessDeviceAllocs ≤ budget.totalAllocs.toNat then (.error .quotaExceeded, budget.countUp.countDown)
  else
    let next := saturatingAdd budget.totalBytes size
    if maxProcessDeviceBytes < next then (.error .quotaExceeded, budget.countUp.countDown)
    else (.ok (), { budget.countUp with totalBytes := next })

def release (size : UInt64) : DeviceMemBudget :=
  ⟨saturatingSub budget.totalBytes size, saturatingSub budget.totalAllocs 1⟩

end DeviceMemBudget

/-! ## A registry -/

/-- Without the device pointer, which there is on CUDA builds only. -/
structure DeviceMemEntry where
  owner : InstanceId
  size : UInt64

structure DeviceMemHandle where
  owner : InstanceId
  size : UInt64

structure DeviceMemRegistry where
  nextHandle : UInt64
  entries : AList fun _ : UInt64 => DeviceMemEntry
  totalDeviceBytes : UInt64

namespace DeviceMemRegistry

/-- `with_budget`: handles start at 1. -/
def withBudget : DeviceMemRegistry := ⟨1, ∅, 0⟩

variable (r : DeviceMemRegistry)

def len : Nat := r.entries.keys.length

/-- The registry's own caps come first; what it has reserved is given back when the process budget
refuses. -/
def insert (budget : DeviceMemBudget) (entry : DeviceMemEntry) :
    Except AbiError UInt64 × DeviceMemRegistry × DeviceMemBudget :=
  if maxDeviceAllocsPerInstance ≤ r.len then (.error .quotaExceeded, r, budget)
  else
    let next := saturatingAdd r.totalDeviceBytes entry.size
    if maxTotalDeviceBytes < next then (.error .quotaExceeded, r, budget)
    else
      match budget.tryReserve entry.size with
      | (.error e, budget) =>
        (.error e, { r with totalDeviceBytes := saturatingSub next entry.size }, budget)
      | (.ok (), budget) =>
        (.ok r.nextHandle,
          { nextHandle := r.nextHandle + 1
            entries := r.entries.insert r.nextHandle entry
            totalDeviceBytes := next },
          budget)

def lookup (handle : UInt64) (owner : InstanceId) : Except AbiError DeviceMemHandle :=
  match r.entries.lookup handle with
  | none => .error .invalidHandle
  | some entry => if entry.owner ≠ owner then .error .invalidHandle else .ok ⟨entry.owner, entry.size⟩

/-- The owner is checked before the entry is removed. -/
def free (budget : DeviceMemBudget) (handle : UInt64) (owner : InstanceId) :
    Except AbiError DeviceMemEntry × DeviceMemRegistry × DeviceMemBudget :=
  match r.entries.lookup handle with
  | none => (.error .invalidHandle, r, budget)
  | some entry =>
    if entry.owner ≠ owner then (.error .invalidHandle, r, budget)
    else
      (.ok entry,
        { r with
          entries := r.entries.erase handle
          totalDeviceBytes := saturatingSub r.totalDeviceBytes entry.size },
        budget.release entry.size)

end DeviceMemRegistry

/-! ## The process -/

/-- An allocation that an insert has made. -/
structure Allocation where
  registry : Nat
  handle : UInt64
  entry : DeviceMemEntry

structure Process where
  budget : DeviceMemBudget
  /-- The live registries, numbered in the order they were made. -/
  registries : AList fun _ : Nat => DeviceMemRegistry
  created : Nat
  /-- Everything that was ever allocated, the last one first. -/
  allocations : List Allocation

inductive Op
  | create
  | insert (registry : Nat) (entry : DeviceMemEntry)
  | free (registry : Nat) (handle : UInt64) (owner : InstanceId)
  | drop (registry : Nat)

namespace Process

def new : Process := ⟨.new, ∅, 0, []⟩

variable (p : Process)

/-- Put a registry and the budget back after a call on them. -/
def update (id : Nat) (r : DeviceMemRegistry) (budget : DeviceMemBudget) : Process :=
  { p with registries := p.registries.insert id r, budget := budget }

def insert (id : Nat) (entry : DeviceMemEntry) (r : DeviceMemRegistry) : Except AbiError UInt64 × Process :=
  match r.insert p.budget entry with
  | (.ok handle, r, budget) =>
    (.ok handle, { p.update id r budget with allocations := ⟨id, handle, entry⟩ :: p.allocations })
  | (.error e, r, budget) => (.error e, p.update id r budget)

def free (id : Nat) (handle : UInt64) (owner : InstanceId) (r : DeviceMemRegistry) :
    Except AbiError DeviceMemEntry × Process :=
  match r.free p.budget handle owner with
  | (answer, r, budget) => (answer, p.update id r budget)

/-- Nothing can be asked of a registry that is not there. -/
def step : Op → Process
  | .create =>
    { p with registries := p.registries.insert p.created .withBudget, created := p.created + 1 }
  | .insert id entry =>
    match p.registries.lookup id with
    | some r => (p.insert id entry r).2
    | none => p
  | .free id handle owner =>
    match p.registries.lookup id with
    | some r => (p.free id handle owner r).2
    | none => p
  | .drop id => { p with registries := p.registries.erase id }

end Process

end TensorWasm.WasiGpu
