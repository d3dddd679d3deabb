import TensorWasm.Proof.PoolSlots

/-!
# Slot accounting over histories

Whatever operations are run one after the other, the counts are those of the instances that are registered
or in a channel. That the channels are all known to the pool needs more: the build of an entry must not fail
once it has put an instance into its channel, since the instances in the channel are dropped with it and
their slots are not. And a release must be given the tenant of the instance.
-/

namespace TensorWasm.Executor

open Lib

/-! ## What is to hold -/

/-- The instances in channels of the pool, of the tenants that `p` selects. -/
def State.warm (s : State) (p : TenantId → Bool) : Nat :=
  tally (fun c ch => if p c.key.tenantId && s.inPool c then ch.queue.length else 0) s.channels

/-- The counts are those of the instances, and within their caps. -/
structure Balanced (x : TensorWasmExecutor) (s : State) : Prop where
  engine : s.slots.instanceCount = s.registered (fun _ => true) + s.warm fun _ => true
  tenant : x.config.maxInstancesPerTenant.isSome → ∀ t, s.slots.count t = s.registered (· = t) + s.warm (· = t)
  engine_le : ∀ max, x.config.maxInstances = some max → s.slots.instanceCount ≤ max
  tenant_le : ∀ cap, x.config.maxInstancesPerTenant = some cap → ∀ t, s.slots.count t ≤ cap

/-- The operation comes to an end, and has left the counts alone if it ends with an error. -/
def Accounted (x : TensorWasmExecutor) (pool : InstancePoolConfig) (s : State) (turn : Op × (Nat → Fate)) :
    Prop :=
  ∃ result s', turn.1.exec x pool turn.2 s = some (result, s') ∧
    ∀ e, result = .error e →
      s'.slots.instanceCount = s.slots.instanceCount ∧ ∀ t, s'.slots.count t = s.slots.count t

/-! ## When it does -/

/-- An acquire that has to build an entry finds at most one instance planned, or no room for a first one, or room
for all of them and no failure on the way; a release is given the tenant of the instance. -/
def Tidy (x : TensorWasmExecutor) (pool : InstancePoolConfig) (s : State) (turn : Op × (Nat → Fate)) : Prop :=
  match turn.1 with
  | .acquire cfg wasm =>
    cfg.streaming = none → cfg.input = [] → s.pools.lookup ⟨cfg.tenantId, x.moduleHash wasm⟩ = none →
      SafeBuild x pool (fun fate => ∃ k, turn.2 k = fate) cfg.tenantId s
  | .release pooled cfg => ∀ e, s.registry.lookup pooled.id = some e → e.tenantId = cfg.tenantId
  | _ => True

variable {x : TensorWasmExecutor} {pool : InstancePoolConfig} {s s' : State}

theorem warm_eq_queued (h : Orderly s) (p : TenantId → Bool) : s.warm p = s.queued p := by
  unfold State.warm State.queued tally
  refine congrArg List.sum (List.map_congr_left ?_)
  intro e he
  have hch : s.channels.lookup e.1 = some e.2 := AList.mem_lookup_iff.mpr he
  cases hin : s.inPool e.1 with
  | true => simp only [hin, Bool.and_true]
  | false => simp only [h.stray e.1 e.2 hch hin, List.length_nil, ite_self]

theorem AtRest.balanced (h : AtRest x s) : Balanced x s where
  engine := by
    rw [warm_eq_queued h.orderly]
    exact (h.books 0).engine
  tenant hcap t := by
    rw [warm_eq_queued h.orderly, (h.books t).tenant hcap t, ite_self]
    rfl
  engine_le := (h.books 0).engine_le
  tenant_le := (h.books 0).tenant_le

theorem AtRest.counts (h : AtRest x s) (h' : AtRest x s') (hunmoved : Unmoved s s') :
    s'.slots.instanceCount = s.slots.instanceCount ∧ ∀ t, s'.slots.count t = s.slots.count t := by
  have hregistered (p : TenantId → Bool) : s'.registered p = s.registered p := by
    rw [State.registered, hunmoved.registry]
    rfl
  constructor
  · rw [(h'.books 0).engine, (h.books 0).engine, hregistered, hunmoved.queued]
  · intro t
    cases hcap : x.config.maxInstancesPerTenant with
    | none => rw [(h'.books 0).uncapped hcap t, (h.books 0).uncapped hcap t]
    | some cap =>
      have hsome : x.config.maxInstancesPerTenant.isSome := hcap ▸ rfl
      rw [(h'.books 0).tenant hsome t, (h.books 0).tenant hsome t, hregistered, hunmoved.queued]

theorem atRest_new : AtRest x State.new where
  books t := by
    refine ⟨rfl, ?_, ?_, ?_, ?_, ?_, ?_, ?_⟩
    · intro _ u
      rw [ite_self]
      rfl
    · intro max _
      exact Nat.zero_le max
    · intro cap _ u
      exact Nat.zero_le cap
    · intro _ u
      rfl
    · intro id hid
      exact absurd hid (AList.notMem_empty id)
    · intro c ch hch
      cases hch
    · intro c hc
      exact absurd hc (AList.notMem_empty c)
  orderly := ⟨nofun, nofun⟩
  idle := nofun

/-- The specifications of the operations, put together. -/
theorem Op.program_settles (op : Op) (env : Nat → Fate) (h : AtRest x s) (htidy : Tidy x pool s (op, env)) :
    Prog.Returns (fun fate => ∃ k, env k = fate) (Settles x s) (op.program x pool).run s := by
  have hresult {α : Type} {p : Fallible α} {ok : Fate → Prop} (hp : Prog.Returns ok (Settles x s) p.run s) :
      Prog.Returns ok (Settles x s) (p >>= fun _ => pure ()).run s := by
    apply Prog.Returns.bindExcept
    refine hp.mono ?_
    rintro (e | a) s' ⟨hrest, herror⟩
    · exact ⟨hrest, fun _ _ => herror e rfl⟩
    · exact ⟨hrest, fun _ he => nomatch he⟩
  have hlift {p : Action Unit} {ok : Fate → Prop} (hp : Prog.Returns ok (fun _ s' => AtRest x s') p s) :
      Prog.Returns ok (Settles x s) (liftM p : Fallible Unit).run s := by
    apply Prog.Returns.lift
    refine hp.mono ?_
    intro _ s' hrest
    exact ⟨hrest, fun _ he => nomatch he⟩
  cases op with
  | spawn cfg wasm => exact hresult (h.settles (spawnInstance_returns cfg wasm (h.books _)))
  | acquire cfg wasm => exact hresult (acquire_settles cfg wasm h htidy)
  | release pooled cfg => exact hlift (release_returns pooled cfg h htidy)
  | terminate id => exact h.settles (terminate_returns id (h.books 0))
  | shutdown => exact hlift (shutdown_returns h)
  | beginCall id =>
    apply Prog.Returns.liftBind
    apply Prog.returns_access
    cases s.registry.lookup id with
    | none => exact ⟨h, fun _ he => nomatch he⟩
    | some entry => exact ⟨h.changeHandles _ _, fun _ he => nomatch he⟩
  | endCall inst =>
    refine hlift ?_
    apply Prog.returns_access
    exact h.changeHandles inst (· - 1)

theorem after_settles (turn : Op × (Nat → Fate)) (h : AtRest x s) (htidy : Tidy x pool s turn) :
    AtRest x (s.after x pool turn) ∧ Accounted x pool s turn := by
  obtain ⟨op, env⟩ := turn
  obtain ⟨result, s', hexec, hrest, herror⟩ :=
    (Op.program_settles op env h htidy).exec fun k => ⟨k, rfl⟩
  have hexec : op.exec x pool env s = some (result, s') := hexec
  constructor
  · rw [State.after]
    simp only [hexec]
    exact hrest
  · exact ⟨result, s', hexec, fun e he => h.counts hrest (herror e he)⟩

/-- Along every tidy history the counts are those of the instances, and every operation ends. -/
theorem slots_balanced_of_tidy (x : TensorWasmExecutor) (pool : InstancePoolConfig)
    (turns : List (Op × (Nat → Fate)))
    (h : Along (State.after x pool) (Tidy x pool) State.new turns) :
    Throughout (State.after x pool) (Balanced x) State.new turns ∧
      Along (State.after x pool) (Accounted x pool) State.new turns := by
  obtain ⟨hthroughout, hall⟩ := Along.keeps_and (fun _ turn hs => after_settles turn hs) atRest_new h
  exact ⟨hthroughout.mono fun _ hs => hs.balanced, hall⟩

/-- An engine with a ceiling, a cap for each tenant, and a digest that does not matter here. -/
def cappedExecutor (maxInstances : Nat) (perTenant : Option Nat) : TensorWasmExecutor where
  config := ⟨some maxInstances, perTenant, none, 8, false, none⟩
  jitCache := false
  pool := none
  blake3 := fun _ => []
  bytesOf := fun _ => []
  reencoder := Wasm.plainDriver _

/-- Nothing that is waited for fails or is slow. -/
def calmEnv : Nat → Fate := fun _ => ⟨none, false⟩

def plainConfig (tenant : TenantId) : SpawnConfig := ⟨tenant, none, none, []⟩

/-- Two instances are planned and there is room for three: an acquire builds both and takes one, a spawn adds
another, and the first one is released and replaced. -/
theorem slots_balanced_of_tidy_planned :
    Throughout (State.after (cappedExecutor 3 (some 3)) ⟨2, 0⟩) (Balanced (cappedExecutor 3 (some 3))) State.new
      [(.acquire (plainConfig 7) [], calmEnv), (.spawn (plainConfig 7) [], calmEnv),
        (.release ⟨1, some []⟩ (plainConfig 7), calmEnv), (.terminate 2, calmEnv), (.shutdown, calmEnv)] := by
  refine (slots_balanced_of_tidy (cappedExecutor 3 (some 3)) ⟨2, 0⟩ _ ?_).1
  refine ⟨?_, trivial, ?_, trivial, trivial, trivial⟩
  · intro _ _ _
    refine .inr (.inr ⟨⟨?_, ?_⟩, ?_⟩)
    · intro max hmax
      cases hmax
      decide
    · intro cap hcap
      cases hcap
      decide
    · rintro _ ⟨_, rfl⟩
      rfl
  · intro e he
    have hfirst : ((State.new.after (cappedExecutor 3 (some 3)) ⟨2, 0⟩
        (.acquire (plainConfig 7) [], calmEnv)).after (cappedExecutor 3 (some 3)) ⟨2, 0⟩
          (.spawn (plainConfig 7) [], calmEnv)).registry.lookup 1 = some ⟨0, 7⟩ := by
      decide +kernel
    obtain rfl := Option.mem_unique hfirst he
    rfl

/-- Two instances are planned and there is room for one: the acquire is refused when it builds the second, and
the slot of the first stays charged though no instance is left. -/
theorem refused_build_leaks_slot :
    (Op.acquire (plainConfig 7) []).exec (cappedExecutor 1 none) ⟨2, 0⟩ calmEnv State.new =
        some (.error (.capacityExhausted 2 1),
          State.new.after (cappedExecutor 1 none) ⟨2, 0⟩ (.acquire (plainConfig 7) [], calmEnv)) ∧
      (State.new.after (cappedExecutor 1 none) ⟨2, 0⟩
        (.acquire (plainConfig 7) [], calmEnv)).slots.instanceCount = 1 ∧
      ¬ Balanced (cappedExecutor 1 none)
        (State.new.after (cappedExecutor 1 none) ⟨2, 0⟩ (.acquire (plainConfig 7) [], calmEnv)) := by
  refine ⟨rfl, rfl, ?_⟩
  intro h
  exact absurd h.engine (by decide +kernel)

end TensorWasm.Executor
