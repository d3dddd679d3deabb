import TensorWasm.Tenant.Context

/-!
# Buffers charged to a tenant

`UnifiedBuffer` of `tensor-wasm-mem/src/unified.rs`, as far as the tenant's GPU byte counter is concerned:
`new_with_visible_window_on_with_tenant_context` charges the counter, `drop` refunds it, and
`try_grow_in_place` moves the length a buffer shows. Whether a build is backed by unified memory
(`IS_UVM_BACKED`) is a constant of the build; the answer of the backing allocator comes from outside.
-/

namespace TensorWasm.Mem

open Lib Tenants

/-- A call on the tenant's GPU counter that no other call gets in the way of. -/
def gpuCall (ctx : TenantContext) (c : Tenants.Call) : TenantContext × CallResult :=
  match ctx.gpuDecision c ctx.gpuBytesInUse with
  | .refuse answer => (ctx, answer)
  | .exchange next answer => ({ ctx with gpuBytesInUse := next }, answer)

inductive BufferError
  | zeroSize
  | tenant (e : TensorWasmError)
  | backing (reason : String)
  | cuda (reason : String)
  | notSupported (feature backing : String)

/-- A buffer that holds its tenant's context. -/
structure UnifiedBuffer where
  size : UInt64
  hostAddressable : Bool
  hostCapacity : UInt64

namespace UnifiedBuffer

/-- `new_with_visible_window_on_with_tenant_context`: the charge comes first and is taken back if the
allocator fails. -/
def newWithTenantContext (ctx : TenantContext) (size : UInt64) (allocated : Except String Unit) :
    TenantContext × Except BufferError UnifiedBuffer :=
  if size = 0 then (ctx, .error .zeroSize)
  else
    match gpuCall ctx (.consume size) with
    | (ctx, .rejected e) => (ctx, .error (.tenant e))
    | (ctx, _) =>
      match allocated with
      | .ok () => (ctx, .ok { size := size, hostAddressable := true, hostCapacity := size })
      | .error e => ((gpuCall ctx (.release size)).1, .error (.backing e))

/-- `try_grow_in_place`, which also shrinks. -/
def tryGrowInPlace (uvmBacked : Bool) (b : UnifiedBuffer) (newSize : UInt64) :
    UnifiedBuffer × Except BufferError Unit :=
  if uvmBacked then
    (b, .error (.cuda ("in-place grow not yet wired -- see UnifiedBuffer::try_grow_in_place doc + " ++
      "RFC 0001 v0.4 follow-up. Until then TensorWasmLinearMemory uses the B5 " ++
      "option-(a) preallocate-at-max strategy.")))
  else if !b.hostAddressable then (b, .error (.notSupported "try_grow_in_place" "host-box"))
  else if newSize > b.hostCapacity then (b, .error (.notSupported "try_grow_in_place" "host-box"))
  else ({ b with size := newSize }, .ok ())

/-- `drop`: the refund is of the length the buffer shows now. -/
def drop (ctx : TenantContext) (b : UnifiedBuffer) : TenantContext := (gpuCall ctx (.release b.size)).1

end UnifiedBuffer

/-! ## The buffers of a tenant -/

/-- A live buffer and the bytes its construction added to the counter. -/
structure ChargedBuffer where
  buffer : UnifiedBuffer
  charged : Nat

structure BufferState where
  ctx : TenantContext
  buffers : List ChargedBuffer

inductive BufferAction
  | construct (size : UInt64) (allocated : Except String Unit)
  | resize (i : Nat) (newSize : UInt64)
  | drop (i : Nat)

namespace BufferState

def construct (s : BufferState) (size : UInt64) (allocated : Except String Unit) : BufferState :=
  match UnifiedBuffer.newWithTenantContext s.ctx size allocated with
  | (ctx, .error _) => { s with ctx := ctx }
  | (ctx, .ok b) =>
    { ctx := ctx, buffers := ⟨b, ctx.gpuBytesInUse.toNat - s.ctx.gpuBytesInUse.toNat⟩ :: s.buffers }

def resize (uvmBacked : Bool) (s : BufferState) (i : Nat) (newSize : UInt64) : BufferState :=
  match s.buffers[i]? with
  | none => s
  | some c =>
    { s with buffers := s.buffers.set i { c with buffer := (c.buffer.tryGrowInPlace uvmBacked newSize).1 } }

def drop (s : BufferState) (i : Nat) : BufferState :=
  match s.buffers[i]? with
  | none => s
  | some c => { ctx := c.buffer.drop s.ctx, buffers := s.buffers.eraseIdx i }

def step (uvmBacked : Bool) (s : BufferState) : BufferAction → BufferState
  | .construct size allocated => s.construct size allocated
  | .resize i newSize => s.resize uvmBacked i newSize
  | .drop i => s.drop i

def run (uvmBacked : Bool) (s : BufferState) (actions : List BufferAction) : BufferState :=
  Lib.run (step uvmBacked) s actions

end BufferState

end TensorWasm.Mem
