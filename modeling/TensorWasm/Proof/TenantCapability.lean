import TensorWasm.Tenant.Registry

/-!
# What a capability is good for

A capability and a context both carry the tenant id and the token of the registry they come from, and this
is all that is compared: a capability opens the contexts of its tenant in its registry, also those of later
registrations.
-/

namespace TensorWasm.Tenants

open Lib
open TenantContext (build)

variable {r : TenantRegistry} {ctx : TenantContext} {cap : TenantCapability} {resource : String}

/-- The check compares tenant ids and registries. -/
theorem checkCapability_ok :
    ctx.checkCapability cap resource = .ok () ↔
      cap.tenantId = ctx.tenantId ∧ ctx.registryToken = some cap.registryToken := by
  unfold TenantContext.checkCapability
  split
  · next hid => exact ⟨fun h => (nomatch h), fun h => absurd h.1 hid⟩
  next hid =>
  cases ctx.registryToken with
  | none => exact ⟨fun h => (nomatch h), fun h => (nomatch h.2)⟩
  | some token =>
    simp only
    split
    · next htoken => exact ⟨fun _ => ⟨not_not.mp hid, congrArg some htoken⟩, fun _ => rfl⟩
    · next htoken => exact ⟨fun h => (nomatch h), fun h => absurd (Option.some.inj h.2) htoken⟩

/-! ## Any number of registries -/

/-- What a successful registration has produced, and where. -/
structure Registration where
  registry : Nat
  context : TenantContext
  capability : TenantCapability

/-- The registries of a process, each with its position as token, and the registrations so far. -/
structure Process where
  registries : List TenantRegistry
  registrations : List Registration

inductive ProcessAction
  | newRegistry
  | register (registry : Nat) (ctx : TenantContext)
  | unregister (registry : Nat) (id : TenantId) (cap : RegistryAdminCapability)
  | collect (registry : Nat) (cap : RegistryAdminCapability)
  | drop (registry : Nat) (ref : ContextRef)

namespace Process

def withRegistry (p : Process) (k : Nat) (r : TenantRegistry) : Process :=
  { p with registries := p.registries.set k r }

/-- What a registration leaves: the context that it has allocated and the capability. -/
def produced (k : Nat) : Except RegistryError (ContextRef × TenantCapability) × TenantRegistry →
    List Registration
  | (.ok (ref, cap), r) => (r.contexts[ref]?).toList.map fun context => ⟨k, context, cap⟩
  | (.error _, _) => []

def step (p : Process) : ProcessAction → Process
  | .newRegistry => { p with registries := p.registries ++ [(TenantRegistry.new p.registries.length).1] }
  | .register k ctx =>
    match p.registries[k]? with
    | none => p
    | some r =>
      { registries := p.registries.set k (r.registerWithCapability ctx).2
        registrations := p.registrations ++ produced k (r.registerWithCapability ctx) }
  | .unregister k id cap =>
    match p.registries[k]? with
    | none => p
    | some r => p.withRegistry k (r.unregister id cap).2
  | .collect k cap =>
    match p.registries[k]? with
    | none => p
    | some r => p.withRegistry k (r.collectTombstones cap).2
  | .drop k ref =>
    match p.registries[k]? with
    | none => p
    | some r => p.withRegistry k (r.dropHandle ref)

def start : Process := ⟨[], []⟩

end Process

/-! ## No operation changes a token -/

namespace TenantRegistry

theorem token_visits (ids : List TenantId) (r : TenantRegistry) :
    (ids.foldl visitTombstone r).registryToken = r.registryToken ∧
      (ids.foldl visitTombstone r).contexts = r.contexts := by
  induction ids generalizing r with
  | nil => exact ⟨rfl, rfl⟩
  | cons id ids ih =>
    have hvisit : (r.visitTombstone id).registryToken = r.registryToken ∧
        (r.visitTombstone id).contexts = r.contexts := by
      unfold visitTombstone
      split
      · split
        · exact ⟨rfl, rfl⟩
        · exact ⟨rfl, rfl⟩
      · exact ⟨rfl, rfl⟩
    obtain ⟨htoken, hcontexts⟩ := ih (r.visitTombstone id)
    exact ⟨htoken.trans hvisit.1, hcontexts.trans hvisit.2⟩

theorem token_maybePrune (r : TenantRegistry) (skipId : TenantId) :
    (r.maybePruneDeadTombstonesExcept skipId).registryToken = r.registryToken ∧
      (r.maybePruneDeadTombstonesExcept skipId).contexts = r.contexts := by
  unfold maybePruneDeadTombstonesExcept
  split
  · exact token_visits _ r
  · exact ⟨rfl, rfl⟩

theorem token_unregister (r : TenantRegistry) (id : TenantId) (cap : RegistryAdminCapability) :
    (r.unregister id cap).2.registryToken = r.registryToken := by
  unfold unregister
  split
  · exact (token_maybePrune _ id).1
  · rfl

theorem token_collectTombstones (r : TenantRegistry) (cap : RegistryAdminCapability) :
    (r.collectTombstones cap).2.registryToken = r.registryToken := by
  unfold collectTombstones
  split
  · rfl
  · exact (token_visits _ r).1

theorem clearTombstone_ok {id : TenantId} {cleared : TenantRegistry} (h : r.clearTombstone id = .ok cleared) :
    cleared.registryToken = r.registryToken ∧ cleared.contexts = r.contexts := by
  unfold clearTombstone at h
  split at h
  · split at h
    · cases h
    · cases h
      exact ⟨rfl, rfl⟩
  · cases h
    exact ⟨rfl, rfl⟩

/-- A registration fails, or produces the stamped context and a capability for it. -/
theorem registerWithCapability_cases (r : TenantRegistry) (ctx : TenantContext) :
    (r.registerWithCapability ctx).2.registryToken = r.registryToken ∧
      ((∃ e, (r.registerWithCapability ctx).1 = .error e) ∨
        ∃ ref, (r.registerWithCapability ctx).1 = .ok (ref, r.mint ctx.tenantId) ∧
          (r.registerWithCapability ctx).2.contexts[ref]? = some (r.stamp ctx)) := by
  unfold registerWithCapability
  split
  · exact ⟨rfl, .inl ⟨_, rfl⟩⟩
  split
  · exact ⟨rfl, .inl ⟨_, rfl⟩⟩
  next cleared hcleared =>
  obtain ⟨htoken, hcontexts⟩ := clearTombstone_ok hcleared
  obtain ⟨hprune, hkept⟩ := token_maybePrune (cleared.insertContext ctx).2 ctx.tenantId
  refine ⟨hprune.trans htoken, .inr ⟨cleared.contexts.length, rfl, ?_⟩⟩
  have hstamp : cleared.stamp ctx = r.stamp ctx := by
    rw [stamp, htoken, stamp]
  simp only [hkept]
  change (cleared.contexts ++ [cleared.stamp ctx])[cleared.contexts.length]? = _
  rw [List.getElem?_append_right le_rfl, Nat.sub_self, hstamp]
  rfl

end TenantRegistry

namespace Process

variable {p : Process}

/-- Context and capability of a registration carry its registry's token, and the same tenant id. -/
structure Bound (reg : Registration) : Prop where
  context : reg.context.registryToken = some reg.registry
  capability : reg.capability.registryToken = reg.registry
  tenant : reg.capability.tenantId = reg.context.tenantId

structure Ok (p : Process) : Prop where
  tokens : ∀ (k : Nat) (r : TenantRegistry), p.registries[k]? = some r → r.registryToken = k
  bound : ∀ reg ∈ p.registrations, Bound reg

theorem Ok.withRegistry (h : p.Ok) {k : Nat} {r r' : TenantRegistry} (hr : p.registries[k]? = some r)
    (htoken : r'.registryToken = r.registryToken) : (p.withRegistry k r').Ok := by
  refine ⟨fun j found hfound => ?_, h.bound⟩
  change (p.registries.set k r')[j]? = some found at hfound
  rw [List.getElem?_set] at hfound
  split at hfound
  · next hj =>
    subst hj
    split at hfound
    · cases hfound
      exact htoken.trans (h.tokens k r hr)
    · cases hfound
  · exact h.tokens j found hfound

theorem bound_produced {r : TenantRegistry} {k : Nat} (htoken : r.registryToken = k) (ctx : TenantContext) :
    ∀ reg ∈ produced k (r.registerWithCapability ctx), Bound reg := by
  intro reg hreg
  obtain ⟨-, ⟨e, herror⟩ | ⟨ref, hok, hcontext⟩⟩ := r.registerWithCapability_cases ctx
  · rw [← Prod.mk.eta (p := r.registerWithCapability ctx), herror] at hreg
    cases hreg
  · rw [← Prod.mk.eta (p := r.registerWithCapability ctx), hok] at hreg
    simp only [produced, hcontext, Option.toList_some, List.map_cons, List.map_nil, List.mem_singleton] at hreg
    subst hreg
    exact ⟨congrArg some htoken, htoken, rfl⟩

theorem Ok.step (h : p.Ok) (a : ProcessAction) : (p.step a).Ok := by
  cases a with
  | newRegistry =>
    refine ⟨fun k r hr => ?_, h.bound⟩
    change (p.registries ++ [(TenantRegistry.new p.registries.length).1])[k]? = some r at hr
    rcases getElem?_concat hr with hr | ⟨rfl, rfl⟩
    · exact h.tokens k r hr
    · rfl
  | register k ctx =>
    cases hr : p.registries[k]? with
    | none =>
      simp only [Process.step, hr]
      exact h
    | some r =>
      have hregistry := h.withRegistry hr (r.registerWithCapability_cases ctx).1
      simp only [Process.step, hr]
      refine ⟨hregistry.tokens, fun reg hreg => ?_⟩
      rcases List.mem_append.mp hreg with hold | hnew
      · exact h.bound reg hold
      · exact bound_produced (h.tokens k r hr) ctx reg hnew
  | unregister k id cap =>
    cases hr : p.registries[k]? with
    | none =>
      simp only [Process.step, hr]
      exact h
    | some r =>
      simp only [Process.step, hr]
      exact h.withRegistry hr (r.token_unregister id cap)
  | collect k cap =>
    cases hr : p.registries[k]? with
    | none =>
      simp only [Process.step, hr]
      exact h
    | some r =>
      simp only [Process.step, hr]
      exact h.withRegistry hr (r.token_collectTombstones cap)
  | drop k ref =>
    cases hr : p.registries[k]? with
    | none =>
      simp only [Process.step, hr]
      exact h
    | some r =>
      simp only [Process.step, hr]
      exact h.withRegistry hr rfl

theorem run_ok (actions : List ProcessAction) : (run step start actions).Ok :=
  run_keeps (fun _ a h => h.step a) ⟨fun _ _ h => (nomatch h), fun _ h => nomatch h⟩ actions

end Process

/-- A capability is accepted just by the contexts of its tenant in its registry, and a context that was
never registered accepts none. -/
theorem capability_binds_tenant_and_registry (actions : List ProcessAction) (resource : String) :
    (∀ issued ∈ (run Process.step Process.start actions).registrations,
      ∀ target ∈ (run Process.step Process.start actions).registrations,
        (target.context.checkCapability issued.capability resource = .ok () ↔
          issued.registry = target.registry ∧ issued.context.tenantId = target.context.tenantId)) ∧
    ∀ issued ∈ (run Process.step Process.start actions).registrations,
      ∀ tenantId quota gpuCap,
        (build tenantId quota gpuCap).checkCapability issued.capability resource ≠ .ok () := by
  have hok := Process.run_ok actions
  constructor
  · intro issued hissued target htarget
    have hfrom := hok.bound issued hissued
    have hto := hok.bound target htarget
    rw [checkCapability_ok, hfrom.tenant, hto.context, hfrom.capability]
    constructor
    · rintro ⟨hid, htoken⟩
      exact ⟨(Option.some.inj htoken).symm, hid⟩
    · rintro ⟨hregistry, hid⟩
      exact ⟨hid, congrArg some hregistry.symm⟩
  · intro issued _ tenantId quota gpuCap h
    exact nomatch (checkCapability_ok.mp h).2

/-- The same tenant in two registries. -/
def namesakes : List ProcessAction :=
  [.newRegistry, .newRegistry, .register 0 (.build 7 1024 none), .register 1 (.build 7 1024 none)]

theorem capability_binds_namesakes :
    ∃ first second, (run Process.step Process.start namesakes).registrations = [first, second] ∧
      first.context.checkCapability first.capability "quota.consume_bytes" = .ok () ∧
      second.context.checkCapability first.capability "quota.consume_bytes" ≠ .ok () ∧
      (build 7 1024 none).checkCapability first.capability "quota.consume_bytes" ≠ .ok () := by
  obtain ⟨hbinds, hfresh⟩ := capability_binds_tenant_and_registry namesakes "quota.consume_bytes"
  have htwo : (run Process.step Process.start namesakes).registrations =
      [⟨0, { build 7 1024 none with registryToken := some 0 }, ⟨7, 0⟩⟩,
        ⟨1, { build 7 1024 none with registryToken := some 1 }, ⟨7, 1⟩⟩] := rfl
  rw [htwo] at hbinds hfresh
  refine ⟨_, _, htwo, ?_, fun h => ?_, hfresh _ List.mem_cons_self 7 1024 none⟩
  · exact (hbinds _ List.mem_cons_self _ List.mem_cons_self).mpr ⟨rfl, rfl⟩
  · have hsame := (hbinds _ List.mem_cons_self _ (List.mem_cons_of_mem _ List.mem_cons_self)).mp h
    exact nomatch hsame.1

/-- A tenant that is registered, unregistered and registered again in one registry. -/
def registeredTwice : List ProcessAction :=
  [.newRegistry, .register 0 (.build 7 1024 none), .drop 0 0, .unregister 0 7 ⟨0⟩, .drop 0 0,
    .register 0 (.build 7 1024 none)]

/-- The capability of the first registration opens the context of the second. -/
theorem old_capability_is_accepted :
    ∃ first second, (run Process.step Process.start registeredTwice).registrations = [first, second] ∧
      second.context.checkCapability first.capability "quota.consume_bytes" = .ok () :=
  ⟨_, _, rfl, rfl⟩

end TensorWasm.Tenants
