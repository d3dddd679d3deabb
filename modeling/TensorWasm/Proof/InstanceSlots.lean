import TensorWasm.Exec.InstancePool
import TensorWasm.Lib.Tally

/-!
# The slots of live instances

Between any two operations the engine-wide count is the number of registered instances and of instances
that some channel holds. During an operation the slots that are charged and belong to no instance yet are at
hand; `Books` counts them too, and each function says how many it takes or leaves.
-/

namespace TensorWasm.Executor

open Lib
open Wasm (Module)
open Prog (Returns returns_access outcome)

/-! ## The two counts -/

namespace Slots

variable (slots : Slots) (tenant u : TenantId)

/-- A tenant's count. -/
def count : Nat := (slots.tenantCounts.lookup tenant).getD 0

theorem count_decrementTenantCount :
    (slots.decrementTenantCount tenant).count u = slots.count u - if u = tenant then 1 else 0 := by
  unfold decrementTenantCount count
  cases hlookup : slots.tenantCounts.lookup tenant with
  | none =>
    by_cases hu : u = tenant
    · subst hu
      simp [hlookup]
    · simp [hu]
  | some v =>
    simp only
    by_cases hu : u = tenant
    · subst hu
      split
      · next hzero => simp [hlookup, AList.lookup_erase, hzero]
      · simp [hlookup]
    · split
      · simp [AList.lookup_erase_ne hu]
      · simp [AList.lookup_insert_ne hu]

@[simp] theorem instanceCount_decrementTenantCount :
    (slots.decrementTenantCount tenant).instanceCount = slots.instanceCount := by
  unfold decrementTenantCount
  split
  · split <;> rfl
  · rfl

theorem count_release : (slots.release tenant).count u = slots.count u - if u = tenant then 1 else 0 :=
  count_decrementTenantCount _ tenant u

theorem instanceCount_release : (slots.release tenant).instanceCount = slots.instanceCount - 1 :=
  instanceCount_decrementTenantCount _ tenant

/-- A tenant is charged within its cap, or nothing is. -/
theorem chargeTenant_cases (perTenantMax : Nat) :
    (∃ slots', slots.chargeTenant tenant perTenantMax = ((slots.count tenant + 1, true), slots') ∧
        slots'.instanceCount = slots.instanceCount ∧ slots.count tenant + 1 ≤ perTenantMax ∧
        ∀ u, slots'.count u = slots.count u + if u = tenant then 1 else 0) ∨
      ∃ slots', slots.chargeTenant tenant perTenantMax = ((slots.count tenant + 1, false), slots') ∧
        slots'.instanceCount = slots.instanceCount ∧ perTenantMax < slots.count tenant + 1 ∧
        ∀ u, slots'.count u = slots.count u := by
  unfold chargeTenant
  simp only
  split
  · next hover =>
    refine .inr ⟨_, rfl, rfl, hover, fun u => ?_⟩
    unfold count
    by_cases hu : u = tenant
    · subst hu
      simp
    · simp [AList.lookup_insert_ne hu]
  · next hfits =>
    refine .inl ⟨_, rfl, rfl, Nat.not_lt.mp hfits, fun u => ?_⟩
    unfold count
    by_cases hu : u = tenant
    · subst hu
      simp
    · simp [AList.lookup_insert_ne hu, hu]

end Slots

/-! ## The books -/

namespace State

variable (s : State) (p : TenantId → Bool)

/-- The registered instances of the tenants that `p` selects. -/
def registered : Nat := weight (fun e => if p e.tenantId then 1 else 0) s.registry

/-- The instances in channels, of the tenants that `p` selects. -/
def queued : Nat := tally (fun c ch => if p c.key.tenantId then ch.queue.length else 0) s.channels

end State

/-- With `n` slots at hand that are charged to the tenant `t`, the counts are right and within their caps. -/
structure Books (x : TensorWasmExecutor) (t : TenantId) (n : Nat) (s : State) : Prop where
  engine : s.slots.instanceCount = s.registered (fun _ => true) + s.queued (fun _ => true) + n
  tenant : x.config.maxInstancesPerTenant.isSome → ∀ u,
    s.slots.count u = s.registered (· = u) + s.queued (· = u) + if u = t then n else 0
  engine_le : ∀ max, x.config.maxInstances = some max → s.slots.instanceCount ≤ max
  tenant_le : ∀ cap, x.config.maxInstancesPerTenant = some cap → ∀ u, s.slots.count u ≤ cap
  /-- Without a cap no tenant is counted. -/
  uncapped : x.config.maxInstancesPerTenant = none → ∀ u, s.slots.count u = 0
  ids : ∀ id ∈ s.registry, id < s.nextInstanceId
  queues : ∀ c ch, s.channels.lookup c = some ch → ∀ r ∈ ch.queue,
    ∃ i, s.heap[r]? = some i ∧ i.tenantId = c.key.tenantId
  numbers : ∀ c ∈ s.channels, c.number < s.allocated

/-- The pool is as it was. -/
structure PoolStill (s s' : State) : Prop where
  channels : s'.channels = s.channels := by rfl
  pools : s'.pools = s.pools := by rfl
  inflight : s'.inflight = s.inflight := by rfl
  cells : s'.cells = s.cells := by rfl

theorem PoolStill.refl (s : State) : PoolStill s s := {}

variable {s' : State}

theorem PoolStill.trans {s s'' : State} (h : PoolStill s s') (h' : PoolStill s' s'') : PoolStill s s'' :=
  ⟨h'.channels.trans h.channels, h'.pools.trans h.pools, h'.inflight.trans h.inflight, h'.cells.trans h.cells⟩

/-- So are the registry and the count of warm instances. -/
structure Still (s s' : State) : Prop extends PoolStill s s' where
  registry : s'.registry = s.registry := by rfl
  warmTotal : s'.stats.warmTotal = s.stats.warmTotal := by rfl

theorem Still.refl (s : State) : Still s s := ⟨.refl s, rfl, rfl⟩

theorem Still.trans {s s'' : State} (h : Still s s') (h' : Still s' s'') : Still s s'' :=
  ⟨h.toPoolStill.trans h'.toPoolStill, h'.registry.trans h.registry, h'.warmTotal.trans h.warmTotal⟩

namespace Books

variable {x : TensorWasmExecutor} {t : TenantId} {n : Nat} {s : State} {slots : Slots}

theorem charge (h : Books x t n s) (hcount : slots.instanceCount = s.slots.instanceCount + 1)
    (hmax : ∀ max, x.config.maxInstances = some max → slots.instanceCount ≤ max)
    (htenant : x.config.maxInstancesPerTenant.isSome → ∀ u,
      slots.count u = s.slots.count u + if u = t then 1 else 0)
    (hcap : ∀ cap, x.config.maxInstancesPerTenant = some cap → slots.count t ≤ cap)
    (hnone : x.config.maxInstancesPerTenant = none → ∀ u, slots.count u = s.slots.count u) :
    Books x t (n + 1) { s with slots := slots } where
  engine := by
    rw [hcount, h.engine]
    rfl
  tenant hsome u := by
    show slots.count u = s.registered (· = u) + s.queued (· = u) + if u = t then n + 1 else 0
    rw [htenant hsome u, h.tenant hsome u]
    split <;> rfl
  engine_le := hmax
  tenant_le cap hsome u := by
    by_cases hu : u = t
    · subst hu
      exact hcap cap hsome
    · have hcount := htenant (hsome ▸ rfl) u
      rw [if_neg hu, Nat.add_zero] at hcount
      exact hcount.trans_le (h.tenant_le cap hsome u)
  uncapped hcap u := (hnone hcap u).trans (h.uncapped hcap u)
  ids := h.ids
  queues := h.queues
  numbers := h.numbers

theorem uncharge (h : Books x t (n + 1) s) (hcount : slots.instanceCount = s.slots.instanceCount - 1)
    (htenant : x.config.maxInstancesPerTenant.isSome → ∀ u,
      slots.count u = s.slots.count u - if u = t then 1 else 0)
    (hnone : x.config.maxInstancesPerTenant = none → ∀ u, slots.count u ≤ s.slots.count u) :
    Books x t n { s with slots := slots } where
  engine := by
    rw [hcount, h.engine]
    rfl
  tenant hsome u := by
    show slots.count u = s.registered (· = u) + s.queued (· = u) + if u = t then n else 0
    rw [htenant hsome u, h.tenant hsome u]
    split <;> rfl
  engine_le max hmax := by
    show slots.instanceCount ≤ max
    rw [hcount]
    exact (Nat.sub_le _ _).trans (h.engine_le max hmax)
  tenant_le cap hsome u := by
    show slots.count u ≤ cap
    rw [htenant (hsome ▸ rfl) u]
    exact (Nat.sub_le _ _).trans (h.tenant_le cap hsome u)
  uncapped hcap u := Nat.le_zero.mp ((hnone hcap u).trans_eq (h.uncapped hcap u))
  ids := h.ids
  queues := h.queues
  numbers := h.numbers

theorem sameCounts (h : Books x t n s) (hcount : slots.instanceCount = s.slots.instanceCount)
    (htenant : ∀ u, slots.count u = s.slots.count u) : Books x t n { s with slots := slots } where
  engine := hcount.trans h.engine
  tenant hsome u := (htenant u).trans (h.tenant hsome u)
  engine_le max hmax := hcount.trans_le (h.engine_le max hmax)
  tenant_le cap hcap u := (htenant u).trans_le (h.tenant_le cap hcap u)
  uncapped hcap u := (htenant u).trans (h.uncapped hcap u)
  ids := h.ids
  queues := h.queues
  numbers := h.numbers

/-- The same slots, held in other places. -/
theorem move (h : Books x t n s) {u : TenantId} {m : Nat} (hslots : s'.slots = s.slots)
    (hheld : ∀ p : TenantId → Bool, s'.registered p + s'.queued p + (if p u then m else 0) =
      s.registered p + s.queued p + if p t then n else 0)
    (ids : ∀ id ∈ s'.registry, id < s'.nextInstanceId)
    (queues : ∀ c ch, s'.channels.lookup c = some ch → ∀ r ∈ ch.queue,
      ∃ i, s'.heap[r]? = some i ∧ i.tenantId = c.key.tenantId)
    (numbers : ∀ c ∈ s'.channels, c.number < s'.allocated) : Books x u m s' where
  engine := by
    rw [hslots, h.engine]
    exact (hheld fun _ => true).symm
  tenant hsome v := by
    rw [hslots, h.tenant hsome v]
    have hv := hheld (· = v)
    simp only [decide_eq_true_eq] at hv
    simp only [@eq_comm _ v t, @eq_comm _ v u]
    exact hv.symm
  engine_le max hmax := hslots ▸ h.engine_le max hmax
  tenant_le cap hcap v := hslots ▸ h.tenant_le cap hcap v
  uncapped hcap v := hslots ▸ h.uncapped hcap v
  ids := ids
  queues := queues
  numbers := numbers

/-- What the books do not mention may change, and the heap may grow. -/
theorem frame (h : Books x t n s) (hslots : s'.slots = s.slots)
    (hregistry : s'.registry = s.registry) (hchannels : s'.channels = s.channels)
    (hids : s.nextInstanceId ≤ s'.nextInstanceId) (hallocated : s.allocated ≤ s'.allocated)
    (hheap : ∀ (r : InstanceRef) (i : Instance), s.heap[r]? = some i →
      ∃ i', s'.heap[r]? = some i' ∧ i'.tenantId = i.tenantId) :
    Books x t n s' := by
  refine h.move hslots ?_ ?_ ?_ ?_
  · intro p
    rw [State.registered, State.queued, hregistry, hchannels]
    rfl
  · intro id hid
    exact (h.ids id (hregistry ▸ hid)).trans_le hids
  · intro c ch hch r hr
    obtain ⟨i, hi, htenant⟩ := h.queues c ch (hchannels ▸ hch) r hr
    obtain ⟨i', hi', htenant'⟩ := hheap r i hi
    exact ⟨i', hi', htenant'.trans htenant⟩
  · intro c hc
    exact (h.numbers c (hchannels ▸ hc)).trans_le hallocated

/-- With nothing at hand it does not matter whose slots they are. -/
theorem anyTenant (h : Books x t 0 s) (u : TenantId) : Books x u 0 s := by
  refine h.move rfl ?_ h.ids h.queues h.numbers
  intro p
  rw [ite_self, ite_self]

end Books

/-! ## Charging and releasing -/

section Admission

variable {x : TensorWasmExecutor} {ok : Fate → Prop} {t : TenantId} {n : Nat} {s : State}

/-- There is room for `k` more instances of a tenant. -/
def Room (x : TensorWasmExecutor) (t : TenantId) (k : Nat) (s : State) : Prop :=
  (∀ max, x.config.maxInstances = some max → s.slots.instanceCount + k ≤ max) ∧
    ∀ cap, x.config.maxInstancesPerTenant = some cap → s.slots.count t + k ≤ cap

/-- The books are as before, for a reason. -/
def Refused (x : TensorWasmExecutor) (t : TenantId) (n : Nat) (reason : Prop) (s s' : State) : Prop :=
  Books x t n s' ∧ Still s s' ∧ reason

theorem releaseInstanceSlot_returns (h : Books x t (n + 1) s) :
    Returns ok (fun _ s' => Books x t n s' ∧ Still s s') (TensorWasmExecutor.releaseInstanceSlot t) s := by
  apply Returns.bind
  apply returns_access
  apply returns_access
  refine ⟨h.uncharge ?_ ?_ ?_, {}⟩
  · exact Slots.instanceCount_release s.slots t
  · intro _ u
    exact Slots.count_release s.slots t u
  · intro _ u
    exact (Slots.count_release s.slots t u).trans_le (Nat.sub_le _ _)

theorem rollBack_returns (h : Books x t (n + 1) s) :
    Returns ok (fun _ s' => Books x t n s' ∧ Still s s') (x.rollBack t) s := by
  unfold TensorWasmExecutor.rollBack
  by_cases hcap : x.config.maxInstancesPerTenant.isSome
  · rw [if_pos hcap]
    exact releaseInstanceSlot_returns h
  · rw [if_neg hcap]
    apply Returns.bind
    apply returns_access
    refine ⟨h.uncharge rfl ?_ ?_, {}⟩
    · intro hsome
      exact absurd hsome hcap
    · intro _ u
      exact le_rfl

/-- The count goes up within the ceiling, or ends where it was. -/
theorem chargeEngine_returns :
    Returns ok
      (outcome
        (fun _ s' => s' = { s with slots := { s.slots with instanceCount := s.slots.instanceCount + 1 } } ∧
          ∀ max, x.config.maxInstances = some max → s.slots.instanceCount + 1 ≤ max)
        fun _ s' => s' = s ∧ ¬ Room x t 1 s)
      x.chargeEngine.run s := by
  unfold TensorWasmExecutor.chargeEngine
  apply Returns.liftBind
  apply returns_access
  cases hmax : x.config.maxInstances with
  | none =>
    refine ⟨rfl, ?_⟩
    intro max hsome
    cases hsome
  | some max =>
    simp only
    split
    · next hover =>
      apply Returns.liftBind
      apply returns_access
      exact ⟨rfl, fun hroom => absurd (hroom.1 max hmax) (Nat.not_le.mpr hover)⟩
    · next hfits =>
      refine ⟨rfl, ?_⟩
      intro max' hsome
      cases hsome
      exact Nat.not_lt.mp hfits

/-- The slot is taken just when there is room for one more. -/
theorem chargeInstanceSlot_returns (h : Books x t n s) :
    Returns ok
      (outcome (fun _ s' => Books x t (n + 1) s' ∧ Still s s' ∧ Room x t 1 s)
        fun _ => Refused x t n (¬ Room x t 1 s) s)
      (x.chargeInstanceSlot t).run s := by
  apply Returns.bindExcept
  refine (chargeEngine_returns (t := t)).mono ?_
  rintro (e | ⟨⟩) s' ⟨rfl, hs'⟩
  · exact ⟨h, Still.refl _, hs'⟩
  unfold TensorWasmExecutor.chargeTenant
  cases hcap : x.config.maxInstancesPerTenant with
  | none =>
    refine ⟨h.charge rfl hs' ?_ ?_ ?_, {}, hs', ?_⟩
    · intro hsome
      exact absurd hsome (by simp [hcap])
    · intro cap hsome
      exact nomatch hcap.symm.trans hsome
    · intro _ u
      rfl
    · intro cap hsome
      exact nomatch hcap.symm.trans hsome
  | some perTenantMax =>
    apply Returns.liftBind
    apply returns_access
    rcases Slots.chargeTenant_cases
        { s.slots with instanceCount := s.slots.instanceCount + 1 } t perTenantMax with
      ⟨slots', heq, hcount, hfits, htenant⟩ | ⟨slots', heq, hcount, hover, htenant⟩
    · simp only [heq]
      refine ⟨h.charge hcount ?_ (fun _ => htenant) ?_ ?_, {}, hs', ?_⟩
      · intro max hsome
        exact hcount.trans_le (hs' max hsome)
      · intro cap hsome
        obtain rfl := Option.mem_unique hcap hsome
        rw [htenant t, if_pos rfl]
        exact hfits
      · intro hnone
        exact nomatch hcap.symm.trans hnone
      · intro cap hsome
        obtain rfl := Option.mem_unique hcap hsome
        exact hfits
    · simp only [heq]
      apply Returns.liftBind
      apply returns_access
      refine ⟨h.sameCounts ?_ htenant, {}, fun hroom => ?_⟩
      · exact congrArg (· - 1) hcount
      · exact absurd (hroom.2 perTenantMax hcap) (Nat.not_le.mpr hover)

end Admission

/-! ## Building -/

section Building

variable {x : TensorWasmExecutor} {ok : Fate → Prop} {t : TenantId} {n : Nat} {s : State} {α : Type}

/-- One more instance fits, and nothing that is waited for fails. -/
def Calm (x : TensorWasmExecutor) (ok : Fate → Prop) (t : TenantId) (s : State) : Prop :=
  Room x t 1 s ∧ ∀ fate, ok fate → fate.failure = none

/-- Something that is waited for may fail. -/
def MayFail (ok : Fate → Prop) : Prop := ¬ ∀ fate, ok fate → fate.failure = none

/-- If the body keeps the slot it is guarded for, a failure of it gives the slot back. -/
theorem slotGuarded_returns {body : Fallible α} {Q : α → State → Prop} {reason : Prop}
    (h : Returns ok (outcome Q fun _ => Refused x t (n + 1) reason s) body.run s) :
    Returns ok (outcome Q fun _ => Refused x t n reason s) (x.slotGuarded t body).run s := by
  apply Returns.bind
  refine h.mono ?_
  rintro (e | a) s' hs'
  · apply Returns.bind
    refine (rollBack_returns hs'.1).mono ?_
    intro _ s'' hs''
    exact ⟨hs''.1, hs'.2.1.trans hs''.2, hs'.2.2⟩
  · exact hs'

/-- A slot is taken for the body, which only fails if something that it waits for does. -/
theorem charged_returns {body : Fallible α} {Q : α → State → Prop} (h : Books x t n s)
    (hbody : ∀ s₁, Books x t (n + 1) s₁ → Still s s₁ → Room x t 1 s →
      Returns ok (outcome Q fun _ => Refused x t (n + 1) (MayFail ok) s₁) body.run s₁) :
    Returns ok (outcome Q fun _ => Refused x t n (¬ Calm x ok t s) s)
      (x.chargeInstanceSlot t >>= fun _ => x.slotGuarded t body).run s := by
  apply Returns.bindExcept
  refine (chargeInstanceSlot_returns h).mono ?_
  rintro (e | ⟨⟩) s₁ ⟨h₁, hstill₁, hroom⟩
  · exact ⟨h₁, hstill₁, fun hcalm => hroom hcalm.1⟩
  refine (slotGuarded_returns (hbody s₁ h₁ hstill₁ hroom)).mono ?_
  rintro (e | a) s₂ hs₂
  · exact ⟨hs₂.1, hstill₁.trans hs₂.2.1, fun hcalm => hs₂.2.2 hcalm.2⟩
  · exact hs₂

theorem checked_returns {Q : Except ExecError Unit → State → Prop} (hok : Q (.ok ()) s)
    (herror : ∀ e, MayFail ok → Q (.error e) s) : Returns ok Q checked.run s := by
  apply Prog.returns_consult
  intro fate hfate
  cases hfailure : fate.failure with
  | some e => simpa [hfailure] using herror e fun hnever => nomatch hfailure.symm.trans (hnever fate hfate)
  | none => simpa [hfailure] using hok

theorem compile_returns (wasm : Module) (key : ModuleHash) (h : Books x t n s) :
    Returns ok (outcome (fun _ s' => Books x t n s' ∧ Still s s') fun _ => Refused x t n (MayFail ok) s)
      (x.compileModuleCachedWithHash wasm key).run s := by
  apply Returns.bindExcept
  apply checked_returns
  · apply Returns.liftBind
    apply returns_access
    cases hfind : s.moduleCache.find? (·.1 = key) with
    | some found =>
      refine ⟨h.frame rfl rfl rfl le_rfl le_rfl ?_, {}⟩
      intro r i hi
      exact ⟨i, hi, rfl⟩
    | none =>
      apply Returns.bindExcept
      apply checked_returns
      · apply Returns.liftBind
        apply returns_access
        refine ⟨h.frame rfl rfl rfl le_rfl le_rfl ?_, {}⟩
        intro r i hi
        exact ⟨i, hi, rfl⟩
      · intro e hfail
        exact ⟨h, Still.refl s, hfail⟩
  · intro e hfail
    exact ⟨h, Still.refl s, hfail⟩

/-- An instance that is at hand, with the slot that there was room for. -/
def AtHand (x : TensorWasmExecutor) (t : TenantId) (n : Nat) (s : State) (inst : InstanceRef) (s' : State) :
    Prop :=
  Books x t (n + 1) s' ∧ Still s s' ∧ Room x t 1 s ∧ ∃ i, s'.heap[inst]? = some i ∧ i.tenantId = t

variable (cfg : SpawnConfig)

theorem instantiateDetached_returns (module : Module) (hcfg : cfg.tenantId = t)
    {s₀ : State} (hstill : Still s₀ s) (hroom : Room x t 1 s₀) (h : Books x t (n + 1) s) :
    Returns ok (outcome (AtHand x t n s₀) fun _ => Refused x t (n + 1) (MayFail ok) s)
      (TensorWasmExecutor.instantiateDetached cfg module).run s := by
  apply Prog.returns_consult
  intro fate hfate
  cases hfailure : fate.failure with
  | some e => exact ⟨h, Still.refl s, fun hnever => nomatch hfailure.symm.trans (hnever fate hfate)⟩
  | none =>
    refine ⟨h.frame rfl rfl rfl le_rfl le_rfl ?_, hstill.trans {}, hroom,
      Instance.new cfg module, List.getElem?_concat_length, hcfg⟩
    intro r i hi
    exact ⟨i, List.getElem?_append_left (List.getElem?_eq_some_iff.mp hi).1 ▸ hi, rfl⟩

theorem buildPooledInstanceWithHash_returns (wasm : Module) (hash : ModuleHash) (h : Books x cfg.tenantId n s) :
    Returns ok
      (outcome (fun built => AtHand x cfg.tenantId n s built.1)
        fun _ => Refused x cfg.tenantId n (¬ Calm x ok cfg.tenantId s) s)
      (x.buildPooledInstanceWithHash cfg wasm hash).run s := by
  apply Returns.bindExcept
  apply checked_returns
  · apply charged_returns h
    intro s₁ h₁ hstill₁ hroom
    apply Returns.bindExcept
    refine (compile_returns wasm hash h₁).mono ?_
    rintro (e | module) s₂ hs₂
    · exact hs₂
    obtain ⟨h₂, hstill₂⟩ := hs₂
    apply Returns.bindExcept
    refine (instantiateDetached_returns cfg module rfl (hstill₁.trans hstill₂) hroom h₂).mono ?_
    rintro (e | inst) s₃ hs₃
    · exact ⟨hs₃.1, hstill₂.trans hs₃.2.1, hs₃.2.2⟩
    · exact hs₃
  · intro e hfail
    exact ⟨h, Still.refl s, fun hcalm => hfail hcalm.2⟩

theorem rebuildPooledFromModule_returns (module : Module) (h : Books x cfg.tenantId n s) :
    Returns ok
      (outcome (AtHand x cfg.tenantId n s) fun _ => Refused x cfg.tenantId n (¬ Calm x ok cfg.tenantId s) s)
      (x.rebuildPooledFromModule cfg module).run s :=
  charged_returns h fun _ h₁ hstill₁ hroom => instantiateDetached_returns cfg module rfl hstill₁ hroom h₁

end Building

/-! ## Registering and removing -/

section Registry

variable {x : TensorWasmExecutor} {ok : Fate → Prop} {t : TenantId} {n : Nat} {s : State}

variable {id : InstanceId} {e : RegistryEntry}

theorem registered_insert (p : TenantId → Bool) (hid : id ∉ s.registry) (hs' : s'.registry = s.registry.insert id e) :
    s'.registered p = s.registered p + if p e.tenantId then 1 else 0 := by
  rw [State.registered, hs', weight_insert_new _ hid, State.registered, Nat.add_comm]

theorem registered_erase (p : TenantId → Bool)
    (hid : s.registry.lookup id = some e) (s' : State) (hs' : s'.registry = s.registry.erase id) :
    s.registered p = s'.registered p + if p e.tenantId then 1 else 0 := by
  rw [State.registered, weight_erase _ hid, State.registered, hs', Nat.add_comm]

/-- The slot at hand is now that of a registered instance. -/
theorem Books.enter (h : Books x t (n + 1) s) {inst : InstanceRef} {i : Instance}
    (hinst : s.heap[inst]? = some i) (hi : i.tenantId = t) (hid : id ∉ s.registry)
    (hlt : id < s.nextInstanceId) (caller : SpawnConfig) (wasm : Module) :
    Books x t n (s.enter id inst i caller wasm) := by
  refine h.move rfl ?_ ?_ ?_ h.numbers
  · intro p
    have hqueued : (s.enter id inst i caller wasm).queued p = s.queued p := rfl
    rw [registered_insert (s := s) p hid rfl, hqueued, hi]
    split <;> omega
  · intro id' hid'
    rcases (AList.mem_insert _).mp hid' with rfl | hid'
    · exact hlt
    · exact h.ids id' hid'
  · intro c ch hch r hr
    obtain ⟨j, hj, htenant⟩ := h.queues c ch hch r hr
    by_cases hri : r = inst
    · subst hri
      obtain rfl := Option.mem_unique hinst hj
      refine ⟨{ i with instanceId := id }, ?_, htenant⟩
      exact List.getElem?_set_self (List.getElem?_eq_some_iff.mp hinst).1
    · exact ⟨j, (List.getElem?_set_ne (Ne.symm hri)).trans hj, htenant⟩

theorem registerPooledInstance_returns (caller : SpawnConfig) (wasm : Module) {inst : InstanceRef}
    (h : Books x t (n + 1) s) (hinst : ∃ i, s.heap[inst]? = some i ∧ i.tenantId = t) :
    Returns ok (outcome (fun _ s' => Books x t n s' ∧ PoolStill s s') fun _ _ => False)
      (TensorWasmExecutor.registerPooledInstance inst caller wasm).run s := by
  obtain ⟨i, hi, htenant⟩ := hinst
  have hfresh : s.nextInstanceId ∉ s.registry := fun hmem => Nat.lt_irrefl _ (h.ids _ hmem)
  apply Returns.liftBind
  apply returns_access
  intro fate _
  refine ⟨.ok s.nextInstanceId,
    State.enter { s with nextInstanceId := s.nextInstanceId + 1 } s.nextInstanceId inst i caller wasm, ?_, ?_⟩
  · simp only [hi, if_neg hfresh]
  · refine ⟨Books.enter (s := { s with nextInstanceId := s.nextInstanceId + 1 }) ?_ hi htenant hfresh
      (Nat.lt_succ_self _) caller wasm, {}⟩
    refine h.frame rfl rfl rfl (Nat.le_succ _) le_rfl ?_
    intro r j hj
    exact ⟨j, hj, rfl⟩

theorem spawnInstance_returns (cfg : SpawnConfig) (wasm : Module) (h : Books x cfg.tenantId n s) :
    Returns ok
      (outcome (fun _ s' => Books x cfg.tenantId n s' ∧ PoolStill s s')
        fun _ s' => Books x cfg.tenantId n s' ∧ Still s s')
      (x.spawnInstance cfg wasm).run s := by
  apply Returns.bindExcept
  refine (buildPooledInstanceWithHash_returns cfg _ _ h).mono ?_
  rintro (e | built) s₁ hs₁
  · exact ⟨hs₁.1, hs₁.2.1⟩
  obtain ⟨h₁, hstill₁, -, hinst⟩ := hs₁
  have hregister : Returns ok
      (outcome (fun _ s' => Books x cfg.tenantId n s' ∧ PoolStill s₁ s')
        fun _ => Refused x cfg.tenantId (n + 1) False s₁)
      (TensorWasmExecutor.registerPooledInstance built.1 cfg wasm).run s₁ := by
    refine (registerPooledInstance_returns cfg wasm h₁ hinst).mono ?_
    rintro (e | id) s₂ hs₂
    · exact hs₂.elim
    · exact hs₂
  refine (slotGuarded_returns hregister).mono ?_
  rintro (e | id) s₂ hs₂
  · exact hs₂.2.2.elim
  · exact ⟨hs₂.1, hstill₁.toPoolStill.trans hs₂.2⟩

/-- The slot of an instance that is taken out of the registry is at hand. -/
theorem Books.remove (h : Books x t 0 s) (he : s.registry.lookup id = some e) :
    Books x e.tenantId 1 { s with registry := s.registry.erase id } := by
  refine h.move rfl ?_ ?_ h.queues h.numbers
  · intro p
    have hregistered := registered_erase p he { s with registry := s.registry.erase id } rfl
    have hqueued : State.queued { s with registry := s.registry.erase id } p = s.queued p := rfl
    rw [hregistered, hqueued, ite_self]
    omega
  · intro id' hid'
    exact h.ids id' (AList.mem_erase.mp hid').2

theorem removeEntry_none (he : s.registry.lookup id = none) : { s with registry := s.registry.erase id } = s := by
  rw [erase_of_lookup_none he]

theorem terminate_returns (id : InstanceId) (h : Books x t 0 s) :
    Returns ok
      (outcome (fun _ s' => Books x t 0 s' ∧ PoolStill s s') fun _ s' => Books x t 0 s' ∧ Still s s')
      (x.terminate id).run s := by
  apply Returns.liftBind
  apply returns_access
  cases he : s.registry.lookup id with
  | none =>
    rw [removeEntry_none he]
    exact ⟨h, Still.refl s⟩
  | some e =>
    apply Returns.lift
    refine (rollBack_returns (h.remove he)).mono ?_
    intro _ s' hs'
    exact ⟨hs'.1.anyTenant t, ⟨hs'.2.channels, hs'.2.pools, hs'.2.inflight, hs'.2.cells⟩⟩

/-- An instance that is moved out keeps its slot, which is then at hand. -/
theorem detachPooledInstance_returns (id : InstanceId) (h : Books x t 0 s) :
    Returns ok
      (fun detached s' => PoolStill s s' ∧
        match detached with
        | none => Books x t 0 s'
        | some _ => ∃ e, s.registry.lookup id = some e ∧ Books x e.tenantId 1 s')
      (x.detachPooledInstance id) s := by
  apply Returns.bind
  apply returns_access
  cases he : s.registry.lookup id with
  | none =>
    rw [removeEntry_none he]
    exact ⟨PoolStill.refl s, h⟩
  | some e =>
    apply Returns.bind
    apply returns_access
    have hremoved := h.remove he
    simp only
    split
    · exact ⟨⟨rfl, rfl, rfl, rfl⟩, e, rfl, hremoved⟩
    · apply Returns.bind
      refine (rollBack_returns hremoved).mono ?_
      intro _ s' hs'
      exact ⟨⟨hs'.2.channels, hs'.2.pools, hs'.2.inflight, hs'.2.cells⟩, hs'.1.anyTenant t⟩

end Registry

/-! ## Channels -/

section Channels

variable {x : TensorWasmExecutor} {ok : Fate → Prop} {t : TenantId} {n : Nat} {s s' s'' : State}
  {c : ChannelRef}

/-- Nothing but the queue of one channel and the counters of the pool may have changed. -/
structure Filled (c : ChannelRef) (s s' : State) : Prop where
  channels : s'.channels = s.channels ∨ ∃ ch, s'.channels = s.channels.insert c ch
  pools : s'.pools = s.pools
  inflight : s'.inflight = s.inflight
  cells : s'.cells = s.cells
  registry : s'.registry = s.registry

theorem Still.filled (h : Still s s') : Filled c s s' :=
  ⟨.inl h.channels, h.pools, h.inflight, h.cells, h.registry⟩

theorem Filled.trans (h : Filled c s s') (h' : Filled c s' s'') : Filled c s s'' where
  channels := by
    rcases h.channels with hsame | ⟨ch, hset⟩
    · rw [← hsame]
      exact h'.channels
    · rcases h'.channels with hsame' | ⟨ch', hset'⟩
      · exact .inr ⟨ch, hsame'.trans hset⟩
      · refine .inr ⟨ch', ?_⟩
        rw [hset', hset, AList.insert_insert]
  pools := h'.pools.trans h.pools
  inflight := h'.inflight.trans h.inflight
  cells := h'.cells.trans h.cells
  registry := h'.registry.trans h.registry

theorem Filled.lookup_ne (h : Filled c s s') {c' : ChannelRef} (hc : c' ≠ c) :
    s'.channels.lookup c' = s.channels.lookup c' := by
  rcases h.channels with hsame | ⟨ch, hset⟩
  · rw [hsame]
  · rw [hset, AList.lookup_insert_ne hc]

theorem queued_insert {ch : Channel} (p : TenantId → Bool) (hc : s.channels.lookup c = some ch)
    {capacity : Nat} {queue : List InstanceRef} (s' : State)
    (hs' : s'.channels = s.channels.insert c ⟨capacity, queue⟩) :
    s'.queued p + (if p c.key.tenantId then ch.queue.length else 0) =
      s.queued p + if p c.key.tenantId then queue.length else 0 := by
  rw [State.queued, hs']
  exact tally_replace _ hc

/-- Slots at hand and places in a queue of the same tenant are exchanged. -/
theorem Books.requeue (h : Books x t n s) {ch : Channel} (hch : s.channels.lookup c = some ch)
    (hc : c.key.tenantId = t) {queue : List InstanceRef} {m : Nat} (hlen : queue.length + m = ch.queue.length + n)
    (hqueue : ∀ r ∈ queue, ∃ i, s.heap[r]? = some i ∧ i.tenantId = t) :
    Books x t m { s with channels := s.channels.insert c { ch with queue := queue } } := by
  refine h.move rfl ?_ h.ids ?_ ?_
  · intro p
    have hqueued := queued_insert p hch
      { s with channels := s.channels.insert c { ch with queue := queue } } rfl
    rw [hc] at hqueued
    have hregistered : State.registered
        { s with channels := s.channels.insert c { ch with queue := queue } } p = s.registered p := rfl
    rw [hregistered]
    cases hp : p t with
    | true =>
      rw [hp, if_pos rfl, if_pos rfl] at hqueued
      rw [if_pos rfl, if_pos rfl]
      omega
    | false =>
      rw [hp, if_neg Bool.false_ne_true, if_neg Bool.false_ne_true] at hqueued
      rw [if_neg Bool.false_ne_true, if_neg Bool.false_ne_true]
      omega
  · intro c' ch' hch' r hr
    rcases lookup_insert_cases hch' with ⟨rfl, rfl⟩ | ⟨-, hch'⟩
    · exact hc ▸ hqueue r hr
    · exact h.queues c' ch' hch' r hr
  · intro c' hc'
    rcases (AList.mem_insert _).mp hc' with rfl | hc'
    · exact h.numbers c' (AList.lookup_isSome.mp (hch ▸ rfl))
    · exact h.numbers c' hc'

/-- Either the slot at hand goes with the instance, or nothing happens. -/
theorem trySend_returns {inst : InstanceRef} (hc : c.key.tenantId = t) (h : Books x t (n + 1) s)
    (hinst : ∃ i, s.heap[inst]? = some i ∧ i.tenantId = t) :
    Returns ok (fun sent s' => Filled c s s' ∧ if sent then Books x t n s' else s' = s)
      (trySend c inst) s := by
  apply returns_access
  cases hch : s.channels.lookup c with
  | none => exact ⟨(Still.refl s).filled, rfl⟩
  | some ch =>
    simp only
    split
    · refine ⟨⟨.inr ⟨_, rfl⟩, rfl, rfl, rfl, rfl⟩, h.requeue hch hc ?_ ?_⟩
      · rw [List.length_append, List.length_singleton]
        omega
      · intro r hr
        rcases List.mem_append.mp hr with hr | hr
        · exact hc ▸ h.queues c ch hch r hr
        · exact List.mem_singleton.mp hr ▸ hinst
    · exact ⟨(Still.refl s).filled, rfl⟩

/-- An instance that is taken out brings its slot along; an empty channel is left alone. -/
theorem tryRecv_returns (hc : c.key.tenantId = t) (h : Books x t n s) :
    Returns ok
      (fun received s' => Filled c s s' ∧
        match received with
        | some inst => Books x t (n + 1) s' ∧ ∃ i, s'.heap[inst]? = some i ∧ i.tenantId = t
        | none => s' = s ∧ ∀ ch, s.channels.lookup c = some ch → ch.queue = [])
      (tryRecv c) s := by
  apply returns_access
  rcases hch : s.channels.lookup c with _ | ⟨capacity, _ | ⟨inst, queue⟩⟩
  · exact ⟨(Still.refl s).filled, rfl, fun ch hch' => nomatch hch'⟩
  · refine ⟨(Still.refl s).filled, rfl, ?_⟩
    intro ch hch'
    cases hch'
    rfl
  · have hqueue : ∀ r ∈ inst :: queue, ∃ i, s.heap[r]? = some i ∧ i.tenantId = t :=
      hc ▸ h.queues c _ hch
    refine ⟨⟨.inr ⟨_, rfl⟩, rfl, rfl, rfl, rfl⟩, h.requeue hch hc ?_ ?_, hqueue inst List.mem_cons_self⟩
    · rw [List.length_cons]
      omega
    · intro r hr
      exact hqueue r (List.mem_cons_of_mem _ hr)

theorem Books.stats (h : Books x t n s) (stats : PoolStats) : Books x t n { s with stats := stats } :=
  h.frame rfl rfl rfl le_rfl le_rfl fun _ i hi => ⟨i, hi, rfl⟩

end Channels

end TensorWasm.Executor
