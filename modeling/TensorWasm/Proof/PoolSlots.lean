import TensorWasm.Proof.InstanceSlots

/-!
# The slots of warm instances

The pool's functions keep the books of `InstanceSlots`, whatever fails in them. What they do not always keep
is that every instance in a channel can still be drawn: the build of an entry that fails after it has put an
instance into its new channel leaves a channel that no map knows. `Orderly` excludes such channels, and the
specifications say what a build needs so that none comes about.
-/

namespace TensorWasm.Executor

open Lib
open Wasm (Module)
open Prog (Returns returns_access outcome)
open AList (lookup_insert lookup_insert_ne)
open TensorWasmExecutor (stock)
open State (queued)

/-! ## Filling a new channel -/

section Prewarm

variable {x : TensorWasmExecutor} {pool : InstancePoolConfig} {ok : Fate → Prop} {t : TenantId} {n k : Nat}
  {s s' : State} {c : ChannelRef}

/-- How many instances the pre-spawn loop sets out to build in so many rounds. -/
def InstancePoolConfig.planned (pool : InstancePoolConfig) (rounds : Nat) (warmTotal : UInt64) : Nat :=
  if pool.maxTotalWarm = 0 then rounds else min rounds (pool.maxTotalWarm.toNat - warmTotal.toNat)

/-- The total cap is reached. -/
def InstancePoolConfig.Full (pool : InstancePoolConfig) (s : State) : Prop :=
  0 < pool.maxTotalWarm ∧ pool.maxTotalWarm ≤ s.stats.warmTotal

theorem planned_succ (h : ¬ pool.Full s) (rounds : Nat) :
    pool.planned (rounds + 1) s.stats.warmTotal = pool.planned rounds (s.stats.warmTotal + 1) + 1 := by
  unfold InstancePoolConfig.planned InstancePoolConfig.Full at *
  split
  · rfl
  · -- the count is below the cap, so that it does not wrap
    have hmax := pool.maxTotalWarm.toNat_lt
    simp only [UInt64.lt_iff_toNat_lt, UInt64.le_iff_toNat_le, UInt64.toNat_add, ← UInt64.toNat_inj,
      UInt64.toNat_zero, UInt64.toNat_one] at *
    omega

/-- There is a place in the channel for every round. -/
def FreeIn (c : ChannelRef) (rounds : Nat) (s : State) : Prop :=
  ∃ ch, s.channels.lookup c = some ch ∧ ch.queue.length + rounds ≤ ch.capacity

theorem warmCapReached_returns {Q : Bool → State → Prop} (hfull : pool.Full s → Q true s)
    (hfree : ¬ pool.Full s → Q false s) : Returns ok Q (TensorWasmExecutor.warmCapReached pool) s := by
  apply returns_access
  by_cases h : pool.Full s
  · have hread : (0 < pool.maxTotalWarm && pool.maxTotalWarm ≤ s.stats.warmTotal : Bool) = true := by
      rw [Bool.and_eq_true, decide_eq_true_eq, decide_eq_true_eq]
      exact h
    simp only [hread]
    exact hfull h
  · have hread : (0 < pool.maxTotalWarm && pool.maxTotalWarm ≤ s.stats.warmTotal : Bool) = false := by
      rw [← Bool.not_eq_true, Bool.and_eq_true, decide_eq_true_eq, decide_eq_true_eq]
      exact h
    simp only [hread]
    exact hfree h

variable (cfg : SpawnConfig)

theorem stock_returns {inst : InstanceRef} (hc : c.key.tenantId = cfg.tenantId)
    (h : Books x cfg.tenantId (n + 1) s) (hinst : ∃ i, s.heap[inst]? = some i ∧ i.tenantId = cfg.tenantId) :
    Returns ok (fun _ s' => Books x cfg.tenantId n s' ∧ Filled c s s') (stock cfg c inst) s := by
  apply Returns.bind
  refine (trySend_returns hc h hinst).mono ?_
  rintro (_ | _) s₁ ⟨hfilled, hs₁⟩
  · obtain rfl : s₁ = s := hs₁
    refine (releaseInstanceSlot_returns h).mono ?_
    intro _ s₂ hs₂
    exact ⟨hs₂.1, hs₂.2.filled⟩
  · apply returns_access
    exact ⟨Books.stats hs₁ _, hfilled.channels, hfilled.pools, hfilled.inflight, hfilled.cells, hfilled.registry⟩

/-- With a place in the channel the instance goes into it. -/
theorem stock_free (inst : InstanceRef) {rounds : Nat} (h : FreeIn c (rounds + 1) s) :
    Returns ok
      (fun _ s' => s'.slots = s.slots ∧ s'.stats.warmTotal = s.stats.warmTotal + 1 ∧ FreeIn c rounds s')
      (stock cfg c inst) s := by
  obtain ⟨ch, hch, hfree⟩ := h
  apply Returns.bind
  apply returns_access
  have hroom : ch.queue.length < ch.capacity := by omega
  simp only [hch, if_pos hroom]
  apply returns_access
  refine ⟨rfl, rfl, { ch with queue := ch.queue ++ [inst] }, lookup_insert _, ?_⟩
  rw [List.length_append, List.length_singleton]
  exact (Nat.add_right_comm _ _ _).trans_le hfree

/-- One round: nothing, an error that has changed nothing, or an instance that is put into the channel before
the other rounds. -/
theorem prewarm_succ (wasm : Module) (rounds : Nat) (module : Option Module)
    {Q : Except ExecError (Option Module) → State → Prop} (h : Books x cfg.tenantId n s)
    (hfull : pool.Full s → Q (.ok module) s)
    (herror : ∀ e s', Refused x cfg.tenantId n (¬ Calm x ok cfg.tenantId s) s s' → ¬ pool.Full s → Q (.error e) s')
    (hnext : ∀ inst module' s', AtHand x cfg.tenantId n s inst s' → ¬ pool.Full s →
      Returns ok (fun _ s'' => Returns ok Q
        (x.prewarm pool cfg wasm c rounds (some module')).run s'')
        (stock cfg c inst) s') :
    Returns ok Q (x.prewarm pool cfg wasm c (rounds + 1) module).run s := by
  apply Returns.liftBind
  apply warmCapReached_returns
  · exact hfull
  intro hfree
  cases module with
  | none =>
    apply Returns.bindExcept
    refine (buildPooledInstanceWithHash_returns cfg wasm c.key.moduleHash h).mono ?_
    rintro (e | ⟨inst, module⟩) s₁ hs₁
    · exact herror e s₁ hs₁ hfree
    · apply Returns.liftBind
      exact hnext inst module s₁ hs₁ hfree
  | some module =>
    apply Returns.bindExcept
    refine (rebuildPooledFromModule_returns cfg module h).mono ?_
    rintro (e | inst) s₁ hs₁
    · exact herror e s₁ hs₁ hfree
    · apply Returns.liftBind
      exact hnext inst module s₁ hs₁ hfree

/-- A further instance takes one place of the room. -/
theorem Room.take (hroom : Room x t (k + 1) s) (h : Books x t n s) (h' : Books x t (n + 1) s')
    (hstill : Still s s') : Room x t k s' := by
  have hregistered (p : TenantId → Bool) : s'.registered p = s.registered p := by
    rw [State.registered, hstill.registry]
    rfl
  have hqueued (p : TenantId → Bool) : s'.queued p = s.queued p := by
    rw [queued, hstill.channels]
    rfl
  constructor
  · intro max hmax
    have hcount := h'.engine
    rw [hregistered, hqueued, ← Nat.add_assoc, ← h.engine] at hcount
    rw [hcount, Nat.add_assoc, Nat.add_comm 1]
    exact hroom.1 max hmax
  · intro cap hcap
    have hcount := h'.tenant (hcap ▸ rfl) t
    have hbefore := h.tenant (hcap ▸ rfl) t
    rw [if_pos rfl] at hbefore
    rw [hregistered, hqueued, if_pos rfl, ← Nat.add_assoc, ← hbefore] at hcount
    rw [hcount, Nat.add_assoc, Nat.add_comm 1]
    exact hroom.2 cap hcap

/-- Nothing is planned in so many rounds, or there is room for all of it and nothing that is waited for
fails. -/
def Assured (x : TensorWasmExecutor) (pool : InstancePoolConfig) (ok : Fate → Prop) (t : TenantId) (rounds : Nat)
    (s : State) : Prop :=
  pool.planned rounds s.stats.warmTotal = 0 ∨
    Room x t (pool.planned rounds s.stats.warmTotal) s ∧ ∀ fate, ok fate → fate.failure = none

/-- If at most one instance is planned, or there is no room for a first, or all of them are assured, an error has
changed nothing; and no module comes back only if no instance was built. -/
theorem prewarm_returns (wasm : Module) (hc : c.key.tenantId = cfg.tenantId)
    (rounds : Nat) : ∀ (module : Option Module) (s : State), Books x cfg.tenantId n s → FreeIn c rounds s →
      (pool.planned rounds s.stats.warmTotal ≤ 1 ∨ ¬ Room x cfg.tenantId 1 s ∨
        Assured x pool ok cfg.tenantId rounds s) →
      Returns ok
        (outcome
          (fun found s' => Books x cfg.tenantId n s' ∧ Filled c s s' ∧ (found = none → module = none ∧ Still s s'))
          fun _ => Refused x cfg.tenantId n (¬ Assured x pool ok cfg.tenantId rounds s) s)
        (x.prewarm pool cfg wasm c rounds module).run s := by
  induction rounds with
  | zero =>
    intro module s h _ _
    exact ⟨h, (Still.refl s).filled, fun hnone => ⟨hnone, Still.refl s⟩⟩
  | succ rounds ih =>
    intro module s h hfree hsafe
    apply prewarm_succ cfg wasm rounds module h
    · intro _
      exact ⟨h, (Still.refl s).filled, fun hnone => ⟨hnone, Still.refl s⟩⟩
    · intro e s₁ ⟨h₁, hstill, hcalm⟩ hbelow
      refine ⟨h₁, hstill, ?_⟩
      rintro (hzero | ⟨hroom, hok⟩)
      · exact nomatch (planned_succ hbelow rounds).symm.trans hzero
      · rw [planned_succ hbelow] at hroom
        refine hcalm ⟨⟨fun max hmax => ?_, fun cap hcap => ?_⟩, hok⟩
        · exact Nat.le_trans (by omega) (hroom.1 max hmax)
        · exact Nat.le_trans (by omega) (hroom.2 cap hcap)
    · intro inst module' s₁ ⟨h₁, hstill, hroom₁, hinst⟩ hbelow
      have hfree₁ : FreeIn c (rounds + 1) s₁ := by
        rw [FreeIn, hstill.channels]
        exact hfree
      refine ((stock_returns cfg hc h₁ hinst).and (stock_free cfg inst hfree₁)).mono ?_
      intro _ s₂ ⟨⟨h₂, hfilled⟩, hslots, hwarm, hfree₂⟩
      -- After one success what is left is assured, so the other rounds do not fail.
      have hassured : Assured x pool ok cfg.tenantId rounds s₂ := by
        rw [Assured, hwarm, hstill.warmTotal, Room, hslots]
        rw [Assured, planned_succ hbelow] at hsafe
        rcases hsafe with hone | hfull | hzero | ⟨hroom, hok⟩
        · exact .inl (Nat.le_zero.mp (Nat.le_of_succ_le_succ hone))
        · exact absurd hroom₁ hfull
        · cases hzero
        · exact .inr ⟨hroom.take h h₁ hstill, hok⟩
      refine (ih (some module') s₂ h₂ hfree₂ (.inr (.inr hassured))).mono ?_
      rintro (e | found) s₃ hs₃
      · exact absurd hassured hs₃.2.2
      · obtain ⟨h₃, hfilled₃, hnone⟩ := hs₃
        exact ⟨h₃, (hstill.filled.trans hfilled).trans hfilled₃, fun hfound => nomatch (hnone hfound).1⟩

end Prewarm

/-! ## The entry of a key -/

section Entry

variable {x : TensorWasmExecutor} {pool : InstancePoolConfig} {ok : Fate → Prop} {t : TenantId} {n : Nat}
  {s s' : State} {c : ChannelRef} {key : PoolKey}

/-- The channel is that of the entry which the pool has for its key. -/
def State.inPool (s : State) (c : ChannelRef) : Bool := (s.pools.lookup c.key).any (·.channel = c)

/-- Each entry has a channel of its own key, and channels out of the pool are empty. -/
structure Orderly (s : State) : Prop where
  entries : ∀ k e, s.pools.lookup k = some e → e.channel.key = k
  stray : ∀ c ch, s.channels.lookup c = some ch → s.inPool c = false → ch.queue = []

/-- No task is at a cell. -/
def Idle (s : State) : Prop :=
  ∀ k cell, s.inflight.lookup k = some cell → cell.key = k ∧ s.cells.lookup cell = some .empty

/-- No instance has come or gone. -/
structure Unmoved (s s' : State) : Prop where
  registry : s'.registry = s.registry
  queued : ∀ p, s'.queued p = s.queued p

theorem Still.unmoved (h : Still s s') : Unmoved s s' where
  registry := h.registry
  queued p := by
    rw [queued, h.channels]
    rfl

theorem Unmoved.trans {s'' : State} (h : Unmoved s s') (h' : Unmoved s' s'') : Unmoved s s'' :=
  ⟨h'.registry.trans h.registry, fun p => (h'.queued p).trans (h.queued p)⟩

/-- At most one instance is planned, or the first is refused its slot, or there is room for all of them and nothing
that is waited for fails. -/
def SafeBuild (x : TensorWasmExecutor) (pool : InstancePoolConfig) (ok : Fate → Prop) (t : TenantId)
    (s : State) : Prop :=
  pool.planned pool.warmInstancesPerTuple s.stats.warmTotal ≤ 1 ∨ ¬ Room x t 1 s ∨
    Room x t (pool.planned pool.warmInstancesPerTuple s.stats.warmTotal) s ∧ ∀ fate, ok fate → fate.failure = none

theorem moduleOnly_returns (cfg : SpawnConfig) (wasm : Module) (hash : ModuleHash) (h : Books x cfg.tenantId n s) :
    Returns ok (fun _ s' => Books x cfg.tenantId n s' ∧ Still s s') (x.moduleOnly cfg wasm hash).run s := by
  apply Returns.bindExcept
  refine (buildPooledInstanceWithHash_returns cfg wasm hash h).mono ?_
  rintro (e | built) s₁ hs₁
  · exact ⟨hs₁.1, hs₁.2.1⟩
  obtain ⟨h₁, hstill, -⟩ := hs₁
  apply Returns.liftBind
  refine (releaseInstanceSlot_returns h₁).mono ?_
  intro _ s₂ hs₂
  exact ⟨hs₂.1, hstill.trans hs₂.2⟩

theorem Filled.of_new {m : AList fun _ : ChannelRef => Channel} {ch : Channel} (h : Filled c s s')
    (hs : s.channels = m.insert c ch) : ∃ ch', s'.channels = m.insert c ch' := by
  rcases h.channels with hsame | ⟨ch', hset⟩
  · exact ⟨ch, hsame.trans hs⟩
  · refine ⟨ch', ?_⟩
    rw [hset, hs, AList.insert_insert]

/-- The state with a new channel. -/
def State.openChannel (s : State) (key : PoolKey) (capacity : Nat) : State :=
  { s with channels := s.channels.insert ⟨key, s.allocated⟩ ⟨capacity, []⟩, allocated := s.allocated + 1 }

theorem Books.fresh (h : Books x t n s) (key : PoolKey) : (⟨key, s.allocated⟩ : ChannelRef) ∉ s.channels :=
  fun hmem => Nat.lt_irrefl _ (h.numbers _ hmem)

variable {capacity : Nat}

theorem queued_new (p : TenantId → Bool) (hc : c ∉ s.channels) {queue : List InstanceRef}
    (hs' : s'.channels = s.channels.insert c ⟨capacity, queue⟩) :
    s'.queued p = (if p c.key.tenantId then queue.length else 0) + s.queued p := by
  rw [queued, hs', tally_insert_new _ hc]
  rfl

theorem queued_new_empty (p : TenantId → Bool) (hc : c ∉ s.channels) (s' : State)
    (hs' : s'.channels = s.channels.insert c ⟨capacity, []⟩) : s'.queued p = s.queued p := by
  rw [queued_new p hc hs', List.length_nil, ite_self, Nat.zero_add]

theorem Books.openChannel (h : Books x t n s) (key : PoolKey) (capacity : Nat) :
    Books x t n (s.openChannel key capacity) := by
  refine h.move rfl ?_ h.ids ?_ ?_
  · intro p
    rw [queued_new_empty p (h.fresh key) (s.openChannel key capacity) rfl]
    rfl
  · intro c ch hch r hr
    rcases lookup_insert_cases hch with ⟨rfl, rfl⟩ | ⟨-, hch⟩
    · cases hr
    · exact h.queues c ch hch r hr
  · intro c hc
    rcases (AList.mem_insert _).mp hc with rfl | hc
    · exact Nat.lt_succ_self _
    · exact (h.numbers c hc).trans (Nat.lt_succ_self _)

/-- What the build of an entry leaves: a new channel, and an entry for it if it succeeded. After an error the
channel is empty. -/
structure Built (key : PoolKey) (s : State) (result : Except ExecError PoolEntry) (s' : State) : Prop where
  registry : s'.registry = s.registry
  inflight : s'.inflight = s.inflight
  cells : s'.cells = s.cells
  pools : s'.pools = match result with
    | .ok entry => s.pools.insert key entry
    | .error _ => s.pools
  channels : ∃ c ch, c ∉ s.channels ∧ c.key = key ∧ s'.channels = s.channels.insert c ch ∧
    match result with
    | .ok entry => entry.channel = c
    | .error _ => ch.queue = []

theorem Books.builtError (h : Books x t n s) {key : PoolKey} (e : ExecError)
    (hstill : Still (s.openChannel key capacity) s') : Built key s (.error e) s' where
  registry := hstill.registry
  inflight := hstill.inflight
  cells := hstill.cells
  pools := hstill.pools
  channels := ⟨⟨key, s.allocated⟩, ⟨capacity, []⟩, h.fresh key, rfl, hstill.channels, rfl⟩

theorem Books.builtOk (h : Books x t n s) {key : PoolKey} (module : Module)
    (hfilled : Filled ⟨key, s.allocated⟩ (s.openChannel key capacity) s') :
    Built key s (.ok ⟨⟨key, s.allocated⟩, module⟩)
      { s' with pools := s'.pools.insert key ⟨⟨key, s.allocated⟩, module⟩ } where
  registry := hfilled.registry
  inflight := hfilled.inflight
  cells := hfilled.cells
  pools := congrArg (AList.insert key ⟨⟨key, s.allocated⟩, module⟩) hfilled.pools
  channels := by
    obtain ⟨ch, hch⟩ := hfilled.of_new rfl
    exact ⟨⟨key, s.allocated⟩, ch, h.fresh key, rfl, hch, rfl⟩

theorem Books.pools (h : Books x t n s) (pools : AList fun _ : PoolKey => PoolEntry) :
    Books x t n { s with pools := pools } :=
  h.frame rfl rfl rfl le_rfl le_rfl fun _ i hi => ⟨i, hi, rfl⟩

theorem buildEntry_returns (cfg : SpawnConfig) (wasm : Module) (hkey : key.tenantId = cfg.tenantId)
    (h : Books x cfg.tenantId n s) (hsafe : SafeBuild x pool ok cfg.tenantId s) :
    Returns ok (fun result s' => Books x cfg.tenantId n s' ∧ Built key s result s')
      (x.buildEntry pool cfg wasm key).run s := by
  have hopened := h.openChannel key (TensorWasmExecutor.channelCapacity pool)
  have hfree : FreeIn ⟨key, s.allocated⟩ pool.warmInstancesPerTuple
      (s.openChannel key (TensorWasmExecutor.channelCapacity pool)) := by
    refine ⟨_, lookup_insert _, ?_⟩
    rw [List.length_nil, Nat.zero_add]
    exact le_max_left _ _
  apply Returns.liftBind
  apply returns_access
  apply Returns.bindExcept
  refine (prewarm_returns cfg wasm hkey _ none _ hopened hfree (hsafe.imp_right (.imp_right .inr))).mono ?_
  rintro (e | (_ | module)) s₁ hs₁
  · exact ⟨hs₁.1, h.builtError e hs₁.2.1⟩
  · obtain ⟨h₁, -, hnone⟩ := hs₁
    have hstill := (hnone rfl).2
    apply Returns.bindExcept
    refine (moduleOnly_returns cfg wasm key.moduleHash h₁).mono ?_
    rintro (e | module) s₂ ⟨h₂, hstill₂⟩
    · exact ⟨h₂, h.builtError e (hstill.trans hstill₂)⟩
    · apply Returns.liftBind
      apply returns_access
      exact ⟨h₂.pools _, h.builtOk module (hstill.trans hstill₂).filled⟩
  · apply Returns.liftBind
    apply returns_access
    exact ⟨hs₁.1.pools _, h.builtOk module hs₁.2.1⟩

variable {result : Except ExecError PoolEntry}

/-- The build of an entry that the pool did not have keeps the pool in order. -/
theorem Built.orderly (hbuilt : Built key s result s')
    (horderly : Orderly s) (hnone : s.pools.lookup key = none) : Orderly s' := by
  obtain ⟨c, ch, hfresh, hc, hchannels, hresult⟩ := hbuilt.channels
  have hpools := hbuilt.pools
  cases result with
  | error e =>
    simp only at hpools hresult
    constructor
    · rw [hpools]
      exact horderly.entries
    · intro c' ch' hch' hout
      rw [hchannels] at hch'
      rw [State.inPool, hpools] at hout
      rcases lookup_insert_cases hch' with ⟨rfl, rfl⟩ | ⟨-, hch'⟩
      · exact hresult
      · exact horderly.stray c' ch' hch' hout
  | ok entry =>
    simp only at hpools hresult
    constructor
    · intro k e he
      rw [hpools] at he
      rcases lookup_insert_cases he with ⟨rfl, rfl⟩ | ⟨-, he⟩
      · rw [hresult, hc]
      · exact horderly.entries k e he
    · intro c' ch' hch' hout
      rw [hchannels] at hch'
      rw [State.inPool, hpools] at hout
      rcases lookup_insert_cases hch' with ⟨rfl, rfl⟩ | ⟨hne, hch'⟩
      · rw [hc, lookup_insert, Option.any_some, hresult, decide_eq_true rfl] at hout
        cases hout
      -- a channel that was there: out of the pool now, so out of the pool before
      · refine horderly.stray c' ch' hch' ?_
        by_cases hk : c'.key = key
        · rw [State.inPool, hk, hnone]
          rfl
        · rw [lookup_insert_ne hk] at hout
          exact hout

/-- Unless the new channel holds instances, none has come or gone. -/
theorem Built.unmoved (hbuilt : Built key s result s')
    (hempty : ∀ entry, result = .ok entry → ∀ ch, s'.channels.lookup entry.channel = some ch → ch.queue = []) :
    Unmoved s s' := by
  obtain ⟨c, ⟨capacity, queue⟩, hfresh, -, hchannels, hresult⟩ := hbuilt.channels
  have hqueue : queue = [] := by
    cases result with
    | error e => exact hresult
    | ok entry =>
      refine hempty entry rfl ⟨capacity, queue⟩ ?_
      rw [hchannels, hresult, lookup_insert]
  subst hqueue
  exact ⟨hbuilt.registry, fun p => queued_new_empty p hfresh s' hchannels⟩

/-- One task is at the cell of a key, and none at any other. -/
structure Busy (key : PoolKey) (cell : CellRef) (s : State) : Prop where
  inflight : s.inflight.lookup key = some cell
  cellKey : cell.key = key
  others : ∀ k cell', k ≠ key → s.inflight.lookup k = some cell' →
    cell'.key = k ∧ s.cells.lookup cell' = some .empty

variable {cell : CellRef}

theorem Busy.setCell (h : Busy key cell s) (value : OnceCell) :
    Busy key cell { s with cells := s.cells.insert cell value } where
  inflight := h.inflight
  cellKey := h.cellKey
  others k cell' hk hcell' := by
    obtain ⟨hkey, hempty⟩ := h.others k cell' hk hcell'
    have hne : cell' ≠ cell := by
      rintro rfl
      exact hk (hkey.symm.trans h.cellKey)
    exact ⟨hkey, (lookup_insert_ne hne).trans hempty⟩

theorem Busy.idle (h : Busy key cell s) (hempty : s.cells.lookup cell = some .empty) : Idle s := by
  intro k cell' hcell'
  by_cases hk : k = key
  · subst hk
    obtain rfl := Option.mem_unique h.inflight hcell'
    exact ⟨h.cellKey, hempty⟩
  · exact h.others k cell' hk hcell'

theorem Busy.remove (h : Busy key cell s) : Idle { s with inflight := s.inflight.erase key } := by
  intro k cell' hcell'
  obtain ⟨hk, hcell'⟩ := lookup_erase_cases hcell'
  exact h.others k cell' hk hcell'

/-- Of what a build depends on, nothing has changed but the cells. -/
structure CellsOnly (s s' : State) : Prop where
  slots : s'.slots = s.slots := by rfl
  registry : s'.registry = s.registry := by rfl
  channels : s'.channels = s.channels := by rfl
  pools : s'.pools = s.pools := by rfl
  stats : s'.stats = s.stats := by rfl
  heap : s'.heap = s.heap := by rfl
  nextInstanceId : s'.nextInstanceId = s.nextInstanceId := by rfl
  allocated : s.allocated ≤ s'.allocated := by exact le_rfl

theorem CellsOnly.books (h : CellsOnly s s') (hbooks : Books x t n s) : Books x t n s' := by
  refine hbooks.frame h.slots h.registry h.channels h.nextInstanceId.ge h.allocated ?_
  intro r i hi
  exact ⟨i, h.heap ▸ hi, rfl⟩

theorem CellsOnly.orderly (h : CellsOnly s s') (horderly : Orderly s) : Orderly s' where
  entries := h.pools ▸ horderly.entries
  stray c ch hch hout := by
    refine horderly.stray c ch (h.channels ▸ hch) ?_
    rw [State.inPool, ← h.pools]
    exact hout

theorem CellsOnly.safeBuild (h : CellsOnly s s') (hsafe : SafeBuild x pool ok t s) : SafeBuild x pool ok t s' := by
  have hroom (k : Nat) : Room x t k s' = Room x t k s := by
    rw [Room, h.slots]
    rfl
  rw [SafeBuild, hroom, hroom, h.stats]
  exact hsafe

theorem CellsOnly.unmoved (h : CellsOnly s s') : Unmoved s s' where
  registry := h.registry
  queued p := by
    rw [queued, h.channels]
    rfl

theorem inflightCell_returns (key : PoolKey) (h : Idle s) :
    Returns ok
      (fun cell s' => CellsOnly s s' ∧ Busy key cell s' ∧ s'.cells.lookup cell = some .empty)
      (inflightCell key) s := by
  apply returns_access
  cases hcell : s.inflight.lookup key with
  | some cell =>
    obtain ⟨hkey, hempty⟩ := h key cell hcell
    exact ⟨{}, ⟨hcell, hkey, fun k cell' _ => h k cell'⟩, hempty⟩
  | none =>
    refine ⟨{ allocated := Nat.le_succ _ }, ⟨lookup_insert _, rfl, ?_⟩, lookup_insert _⟩
    intro k cell' hk hcell'
    obtain ⟨hkey, hempty⟩ := h k cell' ((lookup_insert_ne hk).symm.trans hcell')
    have hne : cell' ≠ ⟨key, s.allocated⟩ := by
      rintro rfl
      exact hk hkey.symm
    exact ⟨hkey, (lookup_insert_ne hne).trans hempty⟩

/-- With the cell empty the build runs, and the cell is left set, or empty again. -/
theorem getOrTryInit_returns {init : Fallible PoolEntry} (hbusy : Busy key cell s)
    (hempty : s.cells.lookup cell = some .empty) {Q : Except ExecError PoolEntry → State → Prop}
    (hinit : ∀ s₁, CellsOnly s s₁ → Returns ok (fun result s₂ => s₂.inflight = s₁.inflight ∧ s₂.cells = s₁.cells ∧
      ∀ s₃, CellsOnly s₂ s₃ → Busy key cell s₃ → (∀ e, result = .error e → s₃.cells.lookup cell = some .empty) →
        Q result s₃) init.run s₁) :
    Returns ok Q (getOrTryInit cell init).run s := by
  apply Returns.bind
  intro fate _
  refine ⟨none, { s with cells := s.cells.insert cell .initialising }, ?_, ?_⟩
  · simp only [hempty]
  apply Returns.bind
  refine (hinit { s with cells := s.cells.insert cell .initialising }
    {}).mono ?_
  intro result s₂ ⟨hinflight, hcells, hQ⟩
  have hentered := hbusy.setCell .initialising
  have hbusy₂ : Busy key cell s₂ := by
    refine ⟨hinflight ▸ hentered.inflight, hbusy.cellKey, ?_⟩
    rw [hinflight, hcells]
    exact hentered.others
  cases result with
  | ok entry =>
    apply Returns.bind
    apply returns_access
    exact hQ _ {} (hbusy₂.setCell _) fun e he => nomatch he
  | error e =>
    apply Returns.bind
    apply returns_access
    exact hQ _ {} (hbusy₂.setCell _)
      fun _ _ => lookup_insert _

/-- In order, and at rest. -/
structure AtRest (x : TensorWasmExecutor) (s : State) : Prop where
  books : ∀ t, Books x t 0 s
  orderly : Orderly s
  idle : Idle s

/-- After an error no instance has come or gone; nor has one if the channel of the entry is empty. -/
theorem ensureEntry_returns (cfg : SpawnConfig) (wasm : Module) (key : PoolKey)
    (hkey : key.tenantId = cfg.tenantId) (h : AtRest x s)
    (hsafe : s.pools.lookup key = none → SafeBuild x pool ok cfg.tenantId s) :
    Returns ok
      (fun result s' => AtRest x s' ∧ match result with
        | .ok entry => s'.pools.lookup key = some entry ∧ s'.registry = s.registry ∧
          ((∀ ch, s'.channels.lookup entry.channel = some ch → ch.queue = []) → Unmoved s s')
        | .error _ => Unmoved s s')
      (x.ensureEntry pool cfg wasm key).run s := by
  apply Returns.liftBind
  apply returns_access
  cases hentry : s.pools.lookup key with
  | some entry =>
    simp only [hentry]
    exact ⟨h, hentry, rfl, fun _ => (Still.refl s).unmoved⟩
  | none =>
    simp only [hentry]
    apply Returns.liftBind
    refine (inflightCell_returns key h.idle).mono ?_
    intro cell s₁ ⟨hcells₁, hbusy, hempty⟩
    apply Returns.bindExcept
    apply getOrTryInit_returns hbusy hempty
    intro s₂ hcells₂
    have hbooks₂ := hcells₂.books (hcells₁.books (h.books cfg.tenantId))
    have hsafe₂ := hcells₂.safeBuild (hcells₁.safeBuild (hsafe hentry))
    refine (buildEntry_returns cfg wasm hkey hbooks₂ hsafe₂).mono ?_
    intro result s₃ ⟨hbooks₃, hbuilt⟩
    refine ⟨hbuilt.inflight, hbuilt.cells, ?_⟩
    intro s₄ hcells₄ hbusy₄ herror
    have hnone₂ : s₂.pools.lookup key = none := by
      rw [hcells₂.pools, hcells₁.pools]
      exact hentry
    have horderly₃ := hbuilt.orderly (hcells₂.orderly (hcells₁.orderly h.orderly)) hnone₂
    have hunmoved₂ := hcells₁.unmoved.trans hcells₂.unmoved
    cases result with
    | error e =>
      refine ⟨⟨fun t => (hcells₄.books hbooks₃).anyTenant t, hcells₄.orderly horderly₃,
        hbusy₄.idle (herror e rfl)⟩, ?_⟩
      exact (hunmoved₂.trans (hbuilt.unmoved fun _ he => nomatch he)).trans hcells₄.unmoved
    | ok entry =>
      apply Returns.liftBind
      apply returns_access
      have hremoved : CellsOnly s₄ { s₄ with inflight := s₄.inflight.erase key } :=
        {}
      refine ⟨⟨fun t => (hremoved.books (hcells₄.books hbooks₃)).anyTenant t,
        hremoved.orderly (hcells₄.orderly horderly₃), hbusy₄.remove⟩, ?_, ?_, ?_⟩
      · show s₄.pools.lookup key = some entry
        rw [hcells₄.pools, hbuilt.pools]
        exact lookup_insert _
      · show s₄.registry = s.registry
        rw [hcells₄.registry, hbuilt.registry, hunmoved₂.registry]
      · intro hqueue
        refine (hunmoved₂.trans (hbuilt.unmoved ?_)).trans (hcells₄.unmoved.trans hremoved.unmoved)
        intro entry' hentry' ch hch
        cases hentry'
        refine hqueue ch ?_
        show s₄.channels.lookup entry.channel = some ch
        rw [hcells₄.channels]
        exact hch

end Entry

/-! ## Operations -/

section Operations

variable {x : TensorWasmExecutor} {pool : InstancePoolConfig} {ok : Fate → Prop} {t : TenantId} {n : Nat}
  {s s' : State} {c : ChannelRef}

theorem Orderly.filled (h : Orderly s) (hfilled : Filled c s s') (hc : s.inPool c = true) : Orderly s' where
  entries := hfilled.pools ▸ h.entries
  stray c' ch hch hout := by
    rw [State.inPool, hfilled.pools] at hout
    have hne : c' ≠ c := by
      rintro rfl
      exact Bool.false_ne_true (hout.symm.trans hc)
    exact h.stray c' ch ((hfilled.lookup_ne hne).symm.trans hch) hout

theorem Orderly.still (h : Orderly s) (hstill : PoolStill s s') : Orderly s' where
  entries := hstill.pools ▸ h.entries
  stray c ch hch hout := by
    rw [State.inPool, hstill.pools] at hout
    exact h.stray c ch (hstill.channels ▸ hch) hout

theorem Idle.congr (h : Idle s) (hinflight : s'.inflight = s.inflight) (hcells : s'.cells = s.cells) : Idle s' := by
  rw [Idle, hinflight, hcells]
  exact h

theorem AtRest.still (h : AtRest x s) (hbooks : Books x t 0 s') (hstill : PoolStill s s') : AtRest x s' :=
  ⟨hbooks.anyTenant, h.orderly.still hstill, h.idle.congr hstill.inflight hstill.cells⟩

theorem AtRest.filled (h : AtRest x s) (hbooks : Books x t 0 s') (hfilled : Filled c s s')
    (hc : s.inPool c = true) : AtRest x s' :=
  ⟨hbooks.anyTenant, h.orderly.filled hfilled hc, h.idle.congr hfilled.inflight hfilled.cells⟩

theorem AtRest.stats (h : AtRest x s) (stats : PoolStats) : AtRest x { s with stats := stats } :=
  ⟨fun t => (h.books t).stats stats, ⟨h.orderly.entries, h.orderly.stray⟩, h.idle⟩

variable {entry : PoolEntry}

theorem inPool_of_entry (h : Orderly s) {key : PoolKey}
    (hentry : s.pools.lookup key = some entry) : s.inPool entry.channel = true := by
  rw [State.inPool, h.entries key entry hentry, hentry]
  exact decide_eq_true rfl

/-- At rest again; and after an error no instance has come or gone. -/
def Settles {α : Type} (x : TensorWasmExecutor) (s : State) (result : Except ExecError α) (s' : State) : Prop :=
  AtRest x s' ∧ ∀ e, result = .error e → Unmoved s s'

/-- A function that keeps the books and leaves the pool alone. -/
theorem AtRest.settles {α : Type} {p : Fallible α} (h : AtRest x s)
    (hp : Returns ok
      (outcome (fun _ s' => Books x t 0 s' ∧ PoolStill s s') fun _ s' => Books x t 0 s' ∧ Still s s') p.run s) :
    Returns ok (Settles x s) p.run s := by
  refine hp.mono ?_
  rintro (e | a) s' hs'
  · exact ⟨h.still hs'.1 hs'.2.toPoolStill, fun _ _ => hs'.2.unmoved⟩
  · exact ⟨h.still hs'.1 hs'.2, fun _ he => nomatch he⟩

theorem missSpawn_settles (cfg : SpawnConfig) (wasm : Module) (origin : Option ModuleHash)
    (h : AtRest x s) : Returns ok (Settles x s) (x.missSpawn cfg wasm origin).run s := by
  apply Returns.liftBind
  apply returns_access
  apply Returns.bindExcept
  refine ((h.stats _).settles (spawnInstance_returns cfg wasm ((h.stats _).books _))).mono ?_
  rintro (e | id) s' ⟨hrest, herror⟩
  · refine ⟨hrest, fun _ _ => ?_⟩
    obtain ⟨hregistry, hqueued⟩ := herror e rfl
    exact ⟨hregistry, hqueued⟩
  · exact ⟨hrest, fun _ he => nomatch he⟩

/-- The rest of an acquire after an instance was taken from a channel. -/
theorem hit_returns (cfg : SpawnConfig) (wasm : Module) (hash : ModuleHash) {inst : InstanceRef}
    (h : Books x t (n + 1) s) (hinst : ∃ i, s.heap[inst]? = some i ∧ i.tenantId = t) :
    Returns ok (outcome (fun _ s' => Books x t n s' ∧ PoolStill s s') fun _ _ => False)
      (do
        warmDown
        countHit
        let id ← TensorWasmExecutor.registerPooledInstance inst cfg wasm
        return ⟨id, some hash⟩ : Fallible PooledInstance).run s := by
  apply Returns.liftBind
  apply returns_access
  apply Returns.liftBind
  apply returns_access
  apply Returns.bindExcept
  have hbooks := h.stats
    { s.stats with warmTotal := s.stats.warmTotal - 1, hitCount := s.stats.hitCount + 1 }
  refine (registerPooledInstance_returns cfg wasm hbooks hinst).mono ?_
  rintro (e | id) s' hs'
  · exact hs'.elim
  · exact ⟨hs'.1, hs'.2.channels, hs'.2.pools, hs'.2.inflight, hs'.2.cells⟩

theorem acquire_settles (cfg : SpawnConfig) (wasm : Module) (h : AtRest x s)
    (hsafe : cfg.streaming = none → cfg.input = [] →
      s.pools.lookup ⟨cfg.tenantId, x.moduleHash wasm⟩ = none → SafeBuild x pool ok cfg.tenantId s) :
    Returns ok (Settles x s) (x.acquire pool cfg wasm).run s := by
  apply Returns.liftBind
  apply returns_access
  have hdrawn := h.stats { s.stats with drawsTotal := s.stats.drawsTotal + 1 }
  have hfresh (origin : Option ModuleHash) : Returns ok (Settles x s)
      (x.missSpawn cfg wasm origin).run
      { s with stats := { s.stats with drawsTotal := s.stats.drawsTotal + 1 } } := by
    refine (missSpawn_settles cfg wasm origin hdrawn).mono ?_
    intro result s' ⟨hrest, herror⟩
    exact ⟨hrest, fun e he => ⟨(herror e he).registry, (herror e he).queued⟩⟩
  by_cases hstreaming : cfg.streaming.isSome
  · rw [if_pos hstreaming]
    exact hfresh none
  rw [if_neg hstreaming]
  cases hinput : cfg.input with
  | cons byte bytes => exact hfresh none
  | nil =>
  apply Returns.bindExcept
  refine (ensureEntry_returns cfg wasm ⟨cfg.tenantId, x.moduleHash wasm⟩ rfl hdrawn
    (hsafe (Option.not_isSome_iff_eq_none.mp hstreaming) hinput)).mono ?_
  rintro (e | entry) s₁ ⟨hrest, hs₁⟩
  · exact ⟨hrest, fun _ _ => ⟨hs₁.registry, hs₁.queued⟩⟩
  obtain ⟨hentry, hregistry, hempty⟩ := hs₁
  have hkey := hrest.orderly.entries _ entry hentry
  apply Returns.liftBind
  refine (tryRecv_returns (congrArg PoolKey.tenantId hkey) (hrest.books cfg.tenantId)).mono ?_
  rintro (_ | inst) s₂ ⟨hfilled, hs₂⟩
  · obtain ⟨rfl, hqueue⟩ := hs₂
    have hunmoved := hempty hqueue
    refine (missSpawn_settles cfg wasm _ hrest).mono ?_
    intro result s₃ ⟨hrest₃, herror⟩
    refine ⟨hrest₃, fun e he => ?_⟩
    have hunmoved₃ := hunmoved.trans (herror e he)
    exact ⟨hunmoved₃.registry, hunmoved₃.queued⟩
  · obtain ⟨hbooks, hinst⟩ := hs₂
    refine (hit_returns cfg wasm _ hbooks hinst).mono ?_
    rintro (e | pooled) s₃ hs₃
    · exact hs₃.elim
    obtain ⟨hbooks₃, hstill⟩ := hs₃
    have horderly := hrest.orderly.filled hfilled (inPool_of_entry hrest.orderly hentry)
    have hidle := hrest.idle.congr hfilled.inflight hfilled.cells
    exact ⟨⟨hbooks₃.anyTenant, horderly.still hstill, hidle.congr hstill.inflight hstill.cells⟩,
      fun _ he => nomatch he⟩

theorem countDrop_returns (h : AtRest x s) : Returns ok (fun _ s' => AtRest x s') countDrop s := by
  apply returns_access
  exact h.stats _

theorem replenish_returns (cfg : SpawnConfig) {hash : ModuleHash} (h : AtRest x s)
    (hentry : s.pools.lookup ⟨cfg.tenantId, hash⟩ = some entry) :
    Returns ok (fun _ s' => AtRest x s') (x.replenish cfg entry) s := by
  have hkey := h.orderly.entries _ entry hentry
  have hdrop (s₁ : State) (h₁ : Books x cfg.tenantId 1 s₁) (hstill : Still s s₁) :
      Returns ok (fun _ s' => AtRest x s') (TensorWasmExecutor.dropReplacement cfg) s₁ := by
    apply Returns.bind
    refine (releaseInstanceSlot_returns h₁).mono ?_
    intro _ s₂ ⟨h₂, hstill₂⟩
    exact countDrop_returns (h.still h₂ (hstill.trans hstill₂).toPoolStill)
  apply Returns.bind
  refine (rebuildPooledFromModule_returns cfg entry.module (h.books cfg.tenantId)).mono ?_
  rintro (e | inst) s₁ hs₁
  · exact countDrop_returns (h.still hs₁.1 hs₁.2.1.toPoolStill)
  obtain ⟨h₁, hstill, -, hinst⟩ := hs₁
  apply Returns.bind
  apply Prog.returns_consult
  intro fate _
  cases fate.slow with
  | true => exact hdrop s₁ h₁ hstill
  | false =>
    apply Returns.bind
    refine (trySend_returns (congrArg PoolKey.tenantId hkey) h₁ hinst).mono ?_
    rintro (_ | _) s₂ ⟨hfilled, hs₂⟩
    · obtain rfl : s₂ = s₁ := hs₂
      exact hdrop s₂ h₁ hstill
    · apply returns_access
      refine AtRest.stats ?_ _
      exact h.filled hs₂ (hstill.filled.trans hfilled) (inPool_of_entry h.orderly hentry)

/-- The slot is released to the tenant of the configuration that is given here. -/
theorem release_returns (pooled : PooledInstance) (cfg : SpawnConfig) (h : AtRest x s)
    (hcfg : ∀ e, s.registry.lookup pooled.id = some e → e.tenantId = cfg.tenantId) :
    Returns ok (fun _ s' => AtRest x s') (x.release pool pooled cfg) s := by
  apply Returns.bind
  refine (detachPooledInstance_returns pooled.id (h.books 0)).mono ?_
  rintro (_ | inst) s₁ ⟨hstill₁, hs₁⟩
  · exact h.still hs₁ hstill₁
  obtain ⟨e, he, h₁⟩ := hs₁
  rw [hcfg e he] at h₁
  apply Returns.bind
  refine (releaseInstanceSlot_returns h₁).mono ?_
  intro _ s₂ ⟨h₂, hstill₂⟩
  have hrest := h.still h₂ (hstill₁.trans hstill₂.toPoolStill)
  split
  · exact countDrop_returns hrest
  · next hash _ =>
    apply Returns.bind
    apply returns_access
    cases hentry : s₂.pools.lookup ⟨cfg.tenantId, hash⟩ with
    | none =>
      simp only [hentry]
      exact countDrop_returns hrest
    | some entry =>
      simp only [hentry]
      apply Returns.bind
      apply warmCapReached_returns
      · intro _
        exact countDrop_returns hrest
      · intro _
        exact replenish_returns cfg hrest hentry

theorem Books.releaseAll (queue : List InstanceRef) : ∀ s : State, Books x t queue.length s →
    Books x t 0 { s with slots := queue.foldl (fun slots _ => slots.release t) s.slots } := by
  induction queue with
  | nil =>
    intro s h
    exact h
  | cons inst queue ih =>
    intro s h
    refine ih { s with slots := s.slots.release t } (h.uncharge ?_ ?_ ?_)
    · exact Slots.instanceCount_release s.slots t
    · intro _ u
      exact Slots.count_release s.slots t u
    · intro _ u
      exact (Slots.count_release s.slots t u).trans_le (Nat.sub_le _ _)

theorem AtRest.drain (h : AtRest x s) {key : PoolKey} (hkey : entry.channel.key = key) :
    AtRest x (s.drain key entry) := by
  subst hkey
  unfold State.drain
  cases hch : s.channels.lookup entry.channel with
  | none => exact h
  | some ch =>
    refine ⟨fun t => ?_, ⟨h.orderly.entries, ?_⟩, h.idle⟩
    · have hemptied : Books x entry.channel.key.tenantId ch.queue.length
          { s with channels := s.channels.insert entry.channel { ch with queue := [] } } :=
        (h.books _).requeue hch rfl (Nat.add_comm _ _) fun r hr => nomatch hr
      exact ((Books.releaseAll ch.queue _ hemptied).stats _).anyTenant t
    · intro c ch' hch' hout
      rcases lookup_insert_cases hch' with ⟨rfl, rfl⟩ | ⟨-, hch'⟩
      · rfl
      · exact h.orderly.stray c ch' hch' hout

theorem shutdown_returns (h : AtRest x s) : Returns ok (fun _ s' => AtRest x s') TensorWasmExecutor.shutdown s := by
  apply returns_access
  have hentries : ∀ e ∈ s.pools.entries, e.2.channel.key = e.1 := by
    intro e he
    exact h.orderly.entries e.1 e.2 (AList.mem_lookup_iff.mpr he)
  show AtRest x (s.pools.entries.foldl (fun s e => s.drain e.1 e.2) s)
  generalize s.pools.entries = entries at hentries
  induction entries generalizing s with
  | nil => exact h
  | cons e entries ih =>
    refine ih (h.drain (hentries e List.mem_cons_self)) ?_
    intro e' he'
    exact hentries e' (List.mem_cons_of_mem _ he')

theorem AtRest.changeHandles (h : AtRest x s) (inst : InstanceRef) (f : Nat → Nat) :
    AtRest x (s.changeHandles inst f) := by
  refine ⟨fun t => (h.books t).frame rfl rfl rfl le_rfl le_rfl ?_, ⟨h.orderly.entries, h.orderly.stray⟩, h.idle⟩
  intro r i hi
  refine ⟨if inst = r then { i with handles := f i.handles } else i, ?_, by split <;> rfl⟩
  rw [State.changeHandles, List.getElem?_modify, hi]
  split <;> simp_all

end Operations

end TensorWasm.Executor
