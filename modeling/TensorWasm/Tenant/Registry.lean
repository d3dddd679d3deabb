import Mathlib.Data.List.AList
import TensorWasm.Tenant.Context

/-!
# The tenant registry

`TenantRegistry` of `tensor-wasm-tenant`: the registered contexts by tenant id, and a tombstone with a
weak reference for each id that was unregistered. A context is known by its allocation. The map and the
holders of handles each have one strong reference to it; that there are such holders is part of the state,
because the strong count is read when an id is registered again.

The operations are given twice: as functions, and in steps that other threads may come between. What an
operation does while it has the guard of its entry in `inner` is one step for each access.
-/

namespace TensorWasm.Tenants

open Lib

/-- An allocation of an `Arc<TenantContext>`. -/
abbrev ContextRef := Nat

inductive RegistryError
  | alreadyRegistered (id : TenantId)
  | orphanStillAlive (id : TenantId)
  | capabilityFromForeignRegistry
  deriving DecidableEq

structure RegistryAdminCapability where
  registryToken : RegistryToken

structure TenantRegistry where
  inner : AList fun _ : TenantId => ContextRef
  tombstones : AList fun _ : TenantId => ContextRef
  registryToken : RegistryToken
  /-- All contexts that were ever registered here, by allocation. -/
  contexts : List TenantContext
  /-- How many handles to a context there are outside the registry. -/
  handles : ContextRef → Nat

namespace TenantRegistry

def new (registryToken : RegistryToken) : TenantRegistry × RegistryAdminCapability :=
  (⟨∅, ∅, registryToken, [], fun _ => 0⟩, ⟨registryToken⟩)

variable (r : TenantRegistry)

/-- `Weak::strong_count`. -/
def strongCount (ref : ContextRef) : Nat :=
  r.handles ref + r.inner.entries.countP fun entry => entry.2 = ref

/-! ## Registering -/

/-- The orphan check: a dead tombstone is removed, a live one stands in the way. -/
def clearTombstone (id : TenantId) : Except RegistryError TenantRegistry :=
  match r.tombstones.lookup id with
  | some ref =>
    if 0 < r.strongCount ref then .error (.orphanStillAlive id)
    else .ok { r with tombstones := r.tombstones.erase id }
  | none => .ok r

/-- A context is bound to the registry that accepts it. -/
def stamp (ctx : TenantContext) : TenantContext := { ctx with registryToken := some r.registryToken }

/-- Stamp a context and allocate it, with one reference for the map and one for the caller. -/
def insertContext (ctx : TenantContext) : ContextRef × TenantRegistry :=
  (r.contexts.length,
    { r with
      contexts := r.contexts ++ [r.stamp ctx]
      inner := r.inner.insert ctx.tenantId r.contexts.length
      handles := Function.update r.handles r.contexts.length 1 })

/-- `TenantCapability::mint`. -/
def mint (id : TenantId) : TenantCapability := ⟨id, r.registryToken⟩

/-- What `retain` does about the tombstone of an id. -/
def visitTombstone (id : TenantId) : TenantRegistry :=
  match r.tombstones.lookup id with
  | some ref => if 0 < r.strongCount ref then r else { r with tombstones := r.tombstones.erase id }
  | none => r

def pruneDeadTombstonesExcept (skipId : TenantId) : TenantRegistry :=
  (r.tombstones.keys.filter (· ≠ skipId)).foldl visitTombstone r

def pruneTombstoneThreshold : Nat := 1024

def maybePruneDeadTombstonesExcept (skipId : TenantId) : TenantRegistry :=
  if pruneTombstoneThreshold < r.tombstones.keys.length then r.pruneDeadTombstonesExcept skipId else r

def registerWithCapability (ctx : TenantContext) :
    Except RegistryError (ContextRef × TenantCapability) × TenantRegistry :=
  if ctx.tenantId ∈ r.inner then (.error (.alreadyRegistered ctx.tenantId), r)
  else
    match r.clearTombstone ctx.tenantId with
    | .error e => (.error e, r)
    | .ok cleared =>
      (.ok ((cleared.insertContext ctx).1, r.mint ctx.tenantId),
        (cleared.insertContext ctx).2.maybePruneDeadTombstonesExcept ctx.tenantId)

/-! ## Admin operations -/

def checkAdminCap (cap : RegistryAdminCapability) : Except RegistryError Unit :=
  if r.registryToken = cap.registryToken then .ok () else .error .capabilityFromForeignRegistry

def cloneHandle (ref : ContextRef) : TenantRegistry :=
  { r with handles := Function.update r.handles ref (r.handles ref + 1) }

def dropHandle (ref : ContextRef) : TenantRegistry :=
  { r with handles := Function.update r.handles ref (r.handles ref - 1) }

/-- A successful lookup gives the caller a handle. -/
def get (id : TenantId) (cap : RegistryAdminCapability) : Option ContextRef × TenantRegistry :=
  match r.checkAdminCap cap, r.inner.lookup id with
  | .ok (), some ref => (some ref, r.cloneHandle ref)
  | _, _ => (none, r)

/-- The tombstone goes in before the entry goes out. -/
def bury (id : TenantId) (ref : ContextRef) : TenantRegistry :=
  { r with tombstones := r.tombstones.insert id ref }

/-- Take the entry out; its reference goes to the caller. The clone that was made for the tombstone ends
with it. -/
def removeEntry (id : TenantId) (ref : ContextRef) : TenantRegistry :=
  { r with
    inner := r.inner.erase id
    handles := Function.update r.handles ref (r.handles ref + 1) }

def unregister (id : TenantId) (cap : RegistryAdminCapability) : Option ContextRef × TenantRegistry :=
  match r.checkAdminCap cap, r.inner.lookup id with
  | .ok (), some ref => (some ref, ((r.bury id ref).removeEntry id ref).maybePruneDeadTombstonesExcept id)
  | _, _ => (none, r)

def collectTombstones (cap : RegistryAdminCapability) : Nat × TenantRegistry :=
  match r.checkAdminCap cap with
  | .error _ => (0, r)
  | .ok () =>
    let collected := r.tombstones.keys.foldl visitTombstone r
    (r.tombstones.keys.length - collected.tombstones.keys.length, collected)

end TenantRegistry

/-! ## In steps -/

/-- An operation under way. -/
inductive Task
  | registering (ctx : TenantContext)
  /-- The entry in `inner` is vacant, and its guard is held. -/
  | checking (ctx : TenantContext)
  | inserting (ctx : TenantContext)
  | registered (result : Except RegistryError (ContextRef × TenantCapability))
  | unregistering (id : TenantId)
  /-- The entry in `inner` is this one, and its guard is held. -/
  | burying (id : TenantId) (ref : ContextRef)
  | removing (id : TenantId) (ref : ContextRef)
  | unregistered (result : Option ContextRef)
  deriving DecidableEq

/-- The entry of `inner` whose guard a task holds. A shard has one guard for all of its entries; with a
guard for each there are more interleavings. -/
def Task.guard : Task → Option TenantId
  | .checking ctx | .inserting ctx => some ctx.tenantId
  | .burying id _ | .removing id _ => some id
  | _ => none

/-- The next access of a task; one that waits for a guard stays where it is. -/
def Task.advance (guarded : TenantId → Bool) (r : TenantRegistry) : Task → TenantRegistry × Task
  | .registering ctx =>
    if guarded ctx.tenantId then (r, .registering ctx)
    else if ctx.tenantId ∈ r.inner then (r, .registered (.error (.alreadyRegistered ctx.tenantId)))
    else (r, .checking ctx)
  | .checking ctx =>
    match r.clearTombstone ctx.tenantId with
    | .error e => (r, .registered (.error e))
    | .ok cleared => (cleared, .inserting ctx)
  | .inserting ctx =>
    ((r.insertContext ctx).2, .registered (.ok ((r.insertContext ctx).1, r.mint ctx.tenantId)))
  | .unregistering id =>
    if guarded id then (r, .unregistering id)
    else
      match r.inner.lookup id with
      | none => (r, .unregistered none)
      | some ref => (r, .burying id ref)
  | .burying id ref => (r.bury id ref, .removing id ref)
  | .removing id ref => (r.removeEntry id ref, .unregistered (some ref))
  | .registered result => (r, .registered result)
  | .unregistered result => (r, .unregistered result)

/-- A registry and the operations on it that have begun. -/
structure Site where
  registry : TenantRegistry
  tasks : List Task

inductive Action
  | register (ctx : TenantContext)
  | unregister (id : TenantId)
  | step (task : Nat)
  | get (id : TenantId)
  | clone (ref : ContextRef)
  | drop (ref : ContextRef)
  /-- A prune or a collection comes to the tombstone of an id. -/
  | visit (id : TenantId)
  deriving DecidableEq

def Action.isVisit : Action → Bool
  | .visit _ => true
  | _ => false

namespace Site

def guarded (s : Site) (id : TenantId) : Bool := s.tasks.any fun task => task.guard = some id

def step (s : Site) : Action → Site
  | .register ctx => { s with tasks := s.tasks ++ [.registering ctx] }
  | .unregister id => { s with tasks := s.tasks ++ [.unregistering id] }
  | .step i =>
    match s.tasks[i]? with
    | none => s
    | some task =>
      ⟨(task.advance s.guarded s.registry).1, s.tasks.set i (task.advance s.guarded s.registry).2⟩
  | .get id =>
    if s.guarded id then s
    else
      match s.registry.inner.lookup id with
      | none => s
      | some ref => { s with registry := s.registry.cloneHandle ref }
  | .clone ref =>
    if 0 < s.registry.handles ref then { s with registry := s.registry.cloneHandle ref } else s
  | .drop ref => { s with registry := s.registry.dropHandle ref }
  | .visit id => { s with registry := s.registry.visitTombstone id }

/-- A registry that has just been made. -/
def start (registryToken : RegistryToken) : Site := ⟨(TenantRegistry.new registryToken).1, []⟩

end Site

end TensorWasm.Tenants
