import TensorWasm.Lib.Counter
import TensorWasm.Lib.Race

/-!
# Tenant contexts

`TenantContext` of `tensor-wasm-tenant`: what a capability is checked against, and the two byte counters.
The counters are atomic and their loops are given by one decision each, from the value a loop has seen to
a refusal or to the value it tries to exchange; `Lib.Race` runs them against each other.
-/

namespace TensorWasm.Tenants

open Lib

abbrev TenantId := UInt64

/-- An `Arc<()>`, which is compared by its allocation. -/
abbrev RegistryToken := Nat

inductive TensorWasmError
  | memoryExhausted (requested limit : UInt64)
  | gpuMemoryExhausted (requested limit current : UInt64)
  | tenantIsolationViolation (tenantId : TenantId) (resource : String)
  deriving DecidableEq

structure TenantCapability where
  tenantId : TenantId
  registryToken : RegistryToken
  deriving DecidableEq

/-- The fields that capabilities and quotas read. -/
structure TenantContext where
  tenantId : TenantId
  memoryQuotaBytes : UInt64
  bytesInUse : UInt64
  gpuMemoryBytesCap : Option UInt64
  gpuBytesInUse : UInt64
  registryToken : Option RegistryToken
  deriving DecidableEq

/-- `TenantContextBuilder::build`: nothing is in use and no registry has vouched for it. -/
def TenantContext.build (tenantId : TenantId) (memoryQuotaBytes : UInt64) (gpuMemoryBytesCap : Option UInt64) :
    TenantContext where
  tenantId := tenantId
  memoryQuotaBytes := memoryQuotaBytes
  bytesInUse := 0
  gpuMemoryBytesCap := gpuMemoryBytesCap
  gpuBytesInUse := 0
  registryToken := none

def TenantContext.checkCapability (ctx : TenantContext) (cap : TenantCapability) (resource : String) :
    Except TensorWasmError Unit :=
  if cap.tenantId ≠ ctx.tenantId then .error (.tenantIsolationViolation cap.tenantId resource)
  else
    match ctx.registryToken with
    | some token =>
      if token = cap.registryToken then .ok ()
      else .error (.tenantIsolationViolation cap.tenantId resource)
    | none => .error (.tenantIsolationViolation cap.tenantId resource)

/-! ## The counters -/

structure ReleaseOutcome where
  released : UInt64
  clamped : Bool
  deriving DecidableEq

/-- What a call on a counter returns. -/
inductive CallResult
  | consumed (next : UInt64)
  | rejected (e : TensorWasmError)
  | released (outcome : ReleaseOutcome) (after : UInt64)
  deriving DecidableEq

/-- `consume_cas`, from the value the loop has seen. -/
def consumeCas (n limit current : UInt64) : Decision UInt64 CallResult :=
  match checkedAdd current n with
  | some next =>
    if next ≤ limit then .exchange next (.consumed next) else .refuse (.rejected (.memoryExhausted n limit))
  | none => .refuse (.rejected (.memoryExhausted n limit))

/-- `release_cas`. -/
def releaseCas (bytes current : UInt64) : Decision UInt64 CallResult :=
  .exchange (saturatingSub current bytes)
    (.released ⟨current - saturatingSub current bytes, current < bytes⟩ (saturatingSub current bytes))

def gpuBytesOverflowSentinel : UInt64 := 18446744073709551615

/-- `consume_gpu_bytes`: without a cap an overflow saturates. -/
def consumeGpuBytes (cap : Option UInt64) (n current : UInt64) : Decision UInt64 CallResult :=
  match cap with
  | none =>
    let next := (checkedAdd current n).getD gpuBytesOverflowSentinel
    .exchange next (.consumed next)
  | some cap =>
    match checkedAdd current n with
    | some next =>
      if cap < next then .refuse (.rejected (.gpuMemoryExhausted n cap current))
      else .exchange next (.consumed next)
    | none => .refuse (.rejected (.gpuMemoryExhausted n cap current))

inductive Call
  | consume (n : UInt64)
  | release (bytes : UInt64)

/-- A call on the counter of host memory. -/
def TenantContext.decision (ctx : TenantContext) : Call → UInt64 → Decision UInt64 CallResult
  | .consume n => consumeCas n ctx.memoryQuotaBytes
  | .release bytes => releaseCas bytes

/-- A call on the counter of GPU memory, whose release loop is that of host memory written out again. -/
def TenantContext.gpuDecision (ctx : TenantContext) : Call → UInt64 → Decision UInt64 CallResult
  | .consume n => consumeGpuBytes ctx.gpuMemoryBytesCap n
  | .release bytes => releaseCas bytes

end TensorWasm.Tenants
