import TensorWasm.Proof.PoolInvariant

/-!
# Every action of an invoke keeps the invariant

One specification for each function of the executor and the pool that an invoke runs, in terms of the share of
the task: what the function needs to have, and what it leaves.
-/

namespace TensorWasm.Executor

open Lib
open Lib.Tasks (Keeps keeps_access keeps_consult keeps_await)
open Wasm (Module)
open Function (update_eq_self)
open Prog (access outcome)
open Instance (new)

section Quiet

variable {x : TensorWasmExecutor} {ι : Type} [DecidableEq ι] {reqs : ι → SpawnConfig × Module} {i : ι}
  {α β : Type} {r : Share} {s s' : State}

structure SameMaps (s s' : State) : Prop where
  moduleCache : s'.moduleCache = s.moduleCache := by rfl
  pools : s'.pools = s.pools := by rfl
  inflight : s'.inflight = s.inflight := by rfl
  cells : s'.cells = s.cells := by rfl

theorem SameMaps.keyed (h : SameMaps s s') (hkeyed : Keyed x s) : Keyed x s' where
  cache := h.moduleCache ▸ hkeyed.cache
  entries := h.pools ▸ hkeyed.entries
  inflight := h.inflight ▸ hkeyed.inflight
  cells := h.cells ▸ hkeyed.cells

/-- Nothing has changed that the invariant is about. -/
structure Untouched (s s' : State) : Prop extends Aside s s', SameMaps s s'

theorem PoolInv.aside {shares : ι → Share} (h : PoolInv x reqs s shares) (hr : shares i = r)
    (haside : Aside s s') (hkeyed : Keyed x s') : PoolInv x reqs s' (Function.update shares i r) := by
  obtain ⟨-, loc, hs⟩ := h
  rw [← hr, update_eq_self]
  exact ⟨hkeyed, loc, haside.consistent hs⟩

/-- An access to the maps of the pool. -/
theorem keeps_aside {f : State → α × State} {Q : α → Share → Prop}
    (h : ∀ s, Keyed x s → Aside s (f s).2 ∧ Keyed x (f s).2 ∧ Q (f s).1 r) :
    Keeps (PoolInv x reqs) i Q (access f : Action α) r := by
  apply keeps_access
  intro s shares hinv hr
  obtain ⟨haside, hkeyed, hQ⟩ := h s hinv.1
  exact ⟨r, hinv.aside hr haside hkeyed, hQ⟩

/-- Run by any task and with any share, the program leaves the share as it is. -/
def Quiet (x : TensorWasmExecutor) (reqs : ι → SpawnConfig × Module) (i : ι) (p : Action α) : Prop :=
  ∀ r, Keeps (PoolInv x reqs) i (fun _ r' => r' = r) p r

theorem quiet_access {f : State → α × State} (h : ∀ s, Untouched s (f s).2) : Quiet x reqs i (access f) := by
  intro r
  apply keeps_aside
  intro s hkeyed
  exact ⟨(h s).toAside, (h s).keyed hkeyed, rfl⟩

variable {p : Action α}

theorem Quiet.bind {f : α → Action β} (hp : Quiet x reqs i p)
    (hf : ∀ a, Quiet x reqs i (f a)) : Quiet x reqs i (p >>= f) := by
  intro r
  refine Keeps.bind ((hp r).mono ?_)
  rintro a _ rfl
  exact hf a _

/-- A quiet program comes first. -/
theorem Quiet.andThen {f : α → Action β} {Q : β → Share → Prop} (hp : Quiet x reqs i p)
    (hf : ∀ a, Keeps (PoolInv x reqs) i Q (f a) r) : Keeps (PoolInv x reqs) i Q (p >>= f) r := by
  refine Keeps.bind ((hp r).mono ?_)
  rintro a _ rfl
  exact hf a

variable {Q : Except ExecError β → Share → Prop}

theorem Quiet.liftBind {f : α → Fallible β}
    (hp : Quiet x reqs i p) (hf : ∀ a, Keeps (PoolInv x reqs) i Q (f a).run r) :
    Keeps (PoolInv x reqs) i Q ((liftM p : Fallible α) >>= f).run r := by
  refine Keeps.liftBind ((hp r).mono ?_)
  rintro a _ rfl
  exact hf a

theorem Quiet.bindExcept {p : Fallible α} {f : α → Fallible β}
    (hp : Quiet x reqs i p.run) (hf : ∀ a, Keeps (PoolInv x reqs) i Q (f a).run r)
    (herror : ∀ e, Q (.error e) r) : Keeps (PoolInv x reqs) i Q (p >>= f).run r := by
  refine Keeps.bindExcept ((hp r).mono ?_)
  rintro (e | a) _ rfl
  · exact herror e
  · exact hf a

theorem quiet_changeSlots (f : Slots → Slots) : Quiet x reqs i (TensorWasmExecutor.changeSlots f) :=
  quiet_access fun _ => {}

theorem quiet_changeStats (f : PoolStats → PoolStats) : Quiet x reqs i (changeStats f) :=
  quiet_access fun _ => {}

theorem quiet_read (f : State → α) : Quiet x reqs i (Prog.read f) :=
  quiet_access fun _ => {}

theorem quiet_done (a : α) : Quiet x reqs i (Prog.done a) := fun _ => rfl

theorem quiet_releaseInstanceSlot (t : TenantId) : Quiet x reqs i (TensorWasmExecutor.releaseInstanceSlot t) :=
  (quiet_changeSlots _).bind fun _ => quiet_changeSlots _

theorem quiet_rollBack (t : TenantId) : Quiet x reqs i (x.rollBack t) := by
  apply (quiet_changeSlots _).bind
  intro _
  split
  · exact quiet_changeSlots _
  · exact quiet_done _

theorem quiet_countUp : Quiet x reqs i TensorWasmExecutor.countUp :=
  quiet_access fun _ => {}

theorem quiet_chargeInstanceSlot (t : TenantId) : Quiet x reqs i (x.chargeInstanceSlot t).run := by
  have hengine : Quiet x reqs i x.chargeEngine.run := by
    intro r
    apply quiet_countUp.liftBind
    intro newCount
    split
    · split
      · exact (quiet_changeSlots _).liftBind fun _ => rfl
      · rfl
    · rfl
  intro r
  apply hengine.bindExcept
  · intro _
    unfold TensorWasmExecutor.chargeTenant
    split
    · rfl
    · next perTenantMax _ =>
      have haccess : Quiet x reqs i (access fun s : State =>
          ((s.slots.chargeTenant t perTenantMax).1, { s with slots := (s.slots.chargeTenant t perTenantMax).2 })) :=
        quiet_access fun _ => {}
      apply haccess.liftBind
      intro charged
      split
      · split
        · rfl
        · exact (quiet_changeSlots _).liftBind fun _ => rfl
  · intro e
    rfl

theorem quiet_checked : Quiet x reqs i checked.run := by
  intro r
  apply keeps_consult
  intro fate s shares hinv hr
  exact ⟨r, hinv.aside hr {} hinv.1, rfl⟩

end Quiet

/-! ## Instances -/

section Instances

variable {x : TensorWasmExecutor} {ι : Type} [DecidableEq ι] {reqs : ι → SpawnConfig × Module} {i : ι}
  {α : Type} {r : Share}

theorem slotGuarded_keeps {body : Fallible α} {Q : α → Share → Prop} {E : ExecError → Share → Prop}
    (t : TenantId) (h : Keeps (PoolInv x reqs) i (outcome Q E) body.run r) :
    Keeps (PoolInv x reqs) i (outcome Q E) (x.slotGuarded t body).run r := by
  apply Keeps.bind
  refine h.mono ?_
  rintro (e | a) r' hr'
  · exact (quiet_rollBack t).andThen fun _ => hr'
  · exact hr'

/-- What comes out of the cache, or is put into it, has the digest it is kept under. -/
theorem compile_keeps (wasm : Module) :
    Keeps (PoolInv x reqs) i
      (outcome (fun module r' => x.moduleHash module = x.moduleHash wasm ∧ r' = r) fun _ r' => r' = r)
      (x.compileModuleCachedWithHash wasm (x.moduleHash wasm)).run r := by
  refine quiet_checked.bindExcept ?_ fun _ => rfl
  intro _
  apply Keeps.liftBind
  apply keeps_aside
  intro s hkeyed
  cases hfind : s.moduleCache.find? (·.1 = x.moduleHash wasm) with
  | some found =>
    have hkey : found.1 = x.moduleHash wasm := by
      simpa using List.find?_some hfind
    have hfound := hkeyed.cache found (List.mem_of_find?_eq_some hfind)
    refine ⟨{}, ⟨?_, hkeyed.entries, hkeyed.inflight, hkeyed.cells⟩, hfound.trans hkey, rfl⟩
    intro entry hentry
    rcases List.mem_cons.mp hentry with rfl | hentry
    · exact hfound.trans hkey
    · exact hkeyed.cache entry (List.mem_filter.mp hentry).1
  | none =>
    refine ⟨{}, hkeyed, ?_⟩
    refine quiet_checked.bindExcept ?_ fun _ => rfl
    intro _
    apply Keeps.liftBind
    apply keeps_aside
    intro s hkeyed
    refine ⟨{}, ⟨?_, hkeyed.entries, hkeyed.inflight, hkeyed.cells⟩, rfl, rfl⟩
    intro entry hentry
    rcases List.mem_cons.mp (List.mem_of_mem_take hentry) with rfl | hentry
    · rfl
    · exact hkeyed.cache entry (List.mem_filter.mp hentry).1

variable (cfg : SpawnConfig)

theorem instantiateDetached_keeps (module : Module) :
    Keeps (PoolInv x reqs) i
      (outcome (fun inst r' => r' = { r with held := some (inst, new cfg module) })
        fun _ r' => r' = r)
      (TensorWasmExecutor.instantiateDetached cfg module).run r := by
  apply keeps_consult
  intro fate s shares hinv hr
  obtain ⟨hkeyed, loc, hs⟩ := hinv
  cases fate.failure with
  | some e =>
    refine ⟨r, ⟨hkeyed, loc, ?_⟩, rfl⟩
    rwa [← hr, update_eq_self]
  | none =>
    have hadopted := hs.adopt i (new cfg module)
    rw [hr] at hadopted
    exact ⟨_, ⟨SameMaps.keyed {} hkeyed, _, hadopted⟩, rfl⟩

/-- The instance that was built is at hand. -/
theorem build_keeps (wasm : Module) {hash : ModuleHash} (hhash : x.moduleHash wasm = hash) :
    Keeps (PoolInv x reqs) i
      (outcome
        (fun built r' => x.moduleHash built.2 = hash ∧ r' = { r with held := some (built.1, new cfg built.2) })
        fun _ r' => r' = r)
      (x.buildPooledInstanceWithHash cfg wasm hash).run r := by
  subst hhash
  refine quiet_checked.bindExcept ?_ fun _ => rfl
  intro _
  refine (quiet_chargeInstanceSlot cfg.tenantId).bindExcept ?_ fun _ => rfl
  intro _
  apply slotGuarded_keeps
  apply Keeps.bindExcept
  refine (compile_keeps wasm).mono ?_
  rintro (e | module) r' hr'
  · exact hr'
  obtain ⟨hhash, rfl⟩ := hr'
  apply Keeps.bindExcept
  refine (instantiateDetached_keeps cfg module).mono ?_
  rintro (e | inst) r'' hr''
  · exact hr''
  · exact ⟨hhash, hr''⟩

theorem rebuild_keeps (module : Module) :
    Keeps (PoolInv x reqs) i
      (outcome (fun inst r' => r' = { r with held := some (inst, new cfg module) })
        fun _ r' => r' = r)
      (x.rebuildPooledFromModule cfg module).run r := by
  refine (quiet_chargeInstanceSlot cfg.tenantId).bindExcept ?_ fun _ => rfl
  intro _
  exact slotGuarded_keeps _ (instantiateDetached_keeps cfg module)

/-- The instance at hand is registered under an id of the task's own. -/
theorem register_keeps {inst : InstanceRef} {content : Instance} (hheld : r.held = some (inst, content))
    (hmade : MadeFor x reqs i content) :
    Keeps (PoolInv x reqs) i
      (outcome (fun id r' => r' = ⟨none, some id, r.call⟩) fun _ _ => True)
      (TensorWasmExecutor.registerPooledInstance inst (reqs i).1 (reqs i).2).run r := by
  apply Keeps.liftBind
  apply keeps_access
  intro s shares hinv hr
  obtain ⟨hkeyed, loc, hs⟩ := hinv
  refine ⟨{ r with id := some s.nextInstanceId },
    ⟨SameMaps.keyed {} hkeyed, loc, ?_⟩, ?_⟩
  · rw [← hr]
    exact hs.allocate i
  apply keeps_await
  intro s' shares' result s'' hinv' hr' hact
  obtain ⟨hkeyed', loc', hs'⟩ := hinv'
  have hheld' : (shares' i).held = some (inst, content) := by
    rw [hr']
    exact hheld
  have hcontent := ((hs'.backed i).held inst content hheld').2
  simp only [hcontent] at hact
  split at hact
  · cases hact
    refine ⟨shares' i, ⟨hkeyed', loc', ?_⟩, trivial⟩
    rwa [update_eq_self]
  · cases hact
    have hid' : (shares' i).id = some s.nextInstanceId := by
      rw [hr']
    have hregistered := hs'.register hheld' hid' hmade
    rw [hr'] at hregistered
    exact ⟨⟨none, some s.nextInstanceId, r.call⟩, ⟨SameMaps.keyed {} hkeyed', _, hregistered⟩, rfl⟩

/-- A fresh spawn is made for its own request. -/
theorem spawnInstance_keeps :
    Keeps (PoolInv x reqs) i
      (outcome (fun id r' => r' = ⟨none, some id, r.call⟩) fun _ _ => True)
      (x.spawnInstance (reqs i).1 (reqs i).2).run r := by
  apply Keeps.bindExcept
  refine (build_keeps (reqs i).1 (x.offloaded (reqs i)) rfl).mono ?_
  rintro (e | ⟨inst, module⟩) r' hr'
  · trivial
  obtain ⟨hhash, rfl⟩ := hr'
  exact slotGuarded_keeps _ (register_keeps rfl (.inr ⟨module, hhash, rfl⟩))

end Instances

/-! ## Channels and entries -/

section Entries

variable {x : TensorWasmExecutor} {pool : InstancePoolConfig} {ι : Type} [DecidableEq ι]
  {reqs : ι → SpawnConfig × Module} {i : ι} {r : Share} {c : ChannelRef} {key : PoolKey}

/-- The same id and the same call; what is at hand may be another instance, or one that was dropped. -/
def Share.Own (r r' : Share) : Prop := r'.id = r.id ∧ r'.call = r.call

theorem Share.Own.trans {r r' r'' : Share} (h : r.Own r') (h' : r'.Own r'') : r.Own r'' :=
  ⟨h'.1.trans h.1, h'.2.trans h.2⟩

/-- Whether or not there was room, the instance is no longer at hand. -/
theorem trySend_keeps {inst : InstanceRef} {content : Instance} (hheld : r.held = some (inst, content))
    (hwarm : WarmFor x reqs c.key content) :
    Keeps (PoolInv x reqs) i (fun _ r' => r' = { r with held := none }) (trySend c inst) r := by
  apply keeps_access
  intro s shares hinv hr
  obtain ⟨hkeyed, loc, hs⟩ := hinv
  have hgone := hs.letGo i
  rw [hr] at hgone
  refine ⟨_, ?_, rfl⟩
  cases hch : s.channels.lookup c with
  | none => exact ⟨hkeyed, loc, hgone⟩
  | some ch =>
    simp only
    split
    · have hsent := hs.send (hr ▸ hheld) hch hwarm
      rw [hr] at hsent
      exact ⟨SameMaps.keyed {} hkeyed, _, hsent⟩
    · exact ⟨hkeyed, loc, hgone⟩

theorem tryRecv_keeps :
    Keeps (PoolInv x reqs) i
      (fun received r' => match received with
        | some inst => ∃ content, WarmFor x reqs c.key content ∧ r' = { r with held := some (inst, content) }
        | none => r' = r)
      (tryRecv c) r := by
  apply keeps_access
  intro s shares hinv hr
  rcases hch : s.channels.lookup c with _ | ⟨capacity, _ | ⟨inst, queue⟩⟩
  · exact ⟨r, hinv.aside hr {} hinv.1, rfl⟩
  · exact ⟨r, hinv.aside hr {} hinv.1, rfl⟩
  · obtain ⟨hkeyed, loc, hs⟩ := hinv
    obtain ⟨-, content, hcontent, hwarm⟩ := hs.stores.queues c _ hch inst List.mem_cons_self
    have hreceived := hs.receive hch hcontent i
    rw [hr] at hreceived
    exact ⟨_, ⟨SameMaps.keyed {} hkeyed, _, hreceived⟩, content, hwarm, rfl⟩

theorem stock_keeps (cfg : SpawnConfig) {inst : InstanceRef} {content : Instance}
    (hheld : r.held = some (inst, content)) (hwarm : WarmFor x reqs c.key content) :
    Keeps (PoolInv x reqs) i (fun _ r' => r' = { r with held := none })
      (TensorWasmExecutor.stock cfg c inst) r := by
  apply Keeps.bind
  refine (trySend_keeps hheld hwarm).mono ?_
  rintro sent _ rfl
  split
  · exact quiet_changeStats _ _
  · exact quiet_releaseInstanceSlot _ _

theorem newChannel_keeps (key : PoolKey) (capacity : Nat) :
    Keeps (PoolInv x reqs) i (fun c r' => c.key = key ∧ r' = r) (newChannel key capacity) r := by
  apply keeps_access
  intro s shares hinv hr
  obtain ⟨hkeyed, loc, hs⟩ := hinv
  refine ⟨r, ⟨SameMaps.keyed {} hkeyed, loc, ?_⟩, rfl, rfl⟩
  rw [← hr, update_eq_self]
  exact hs.newChannel _ _ _

/-- The pre-spawn loop fills the channel with instances for the key of the request. -/
theorem prewarm_keeps (hpoolable : (reqs i).1.Poolable) (hkey : x.keyOf (reqs i) = c.key)
    (rounds : Nat) : ∀ (module : Option Module) (r : Share),
      (∀ m, module = some m → x.moduleHash m = c.key.moduleHash) →
      Keeps (PoolInv x reqs) i
        (outcome
          (fun module r' => (∀ m, module = some m → x.moduleHash m = c.key.moduleHash) ∧ r.Own r')
          fun _ r' => r.Own r')
        (x.prewarm pool (reqs i).1 (reqs i).2 c rounds module).run r := by
  have hhash : x.moduleHash (reqs i).2 = c.key.moduleHash := congrArg PoolKey.moduleHash hkey
  induction rounds with
  | zero =>
    intro module r hmodule
    exact ⟨hmodule, rfl, rfl⟩
  | succ rounds ih =>
    -- the rest, with an instance at hand that was built from a module of the key
    have hnext (r : Share) (inst : InstanceRef) (module : Module)
        (hmodule : x.moduleHash module = c.key.moduleHash) :
        Keeps (PoolInv x reqs) i
          (outcome (fun module r' => (∀ m, module = some m → x.moduleHash m = c.key.moduleHash) ∧ r.Own r')
            fun _ r' => r.Own r')
          (do
            TensorWasmExecutor.stock (reqs i).1 c inst
            x.prewarm pool (reqs i).1 (reqs i).2 c rounds (some module) : Fallible (Option Module)).run
          { r with held := some (inst, new (reqs i).1 module) } := by
      apply Keeps.liftBind
      refine (stock_keeps _ rfl ⟨i, module, hpoolable, hkey, hmodule, rfl⟩).mono ?_
      rintro _ _ rfl
      refine ih (some module) { r with held := none } ?_
      intro m hm
      cases hm
      exact hmodule
    intro module r hmodule
    apply (quiet_read _).liftBind
    intro full
    split
    · exact ⟨hmodule, rfl, rfl⟩
    cases module with
    | none =>
      apply Keeps.bindExcept
      refine (build_keeps (reqs i).1 (reqs i).2 hhash).mono ?_
      rintro (e | ⟨inst, module⟩) r' hr'
      · obtain rfl := hr'
        exact ⟨rfl, rfl⟩
      obtain ⟨hbuilt, rfl⟩ := hr'
      exact hnext r inst module hbuilt
    | some module =>
      apply Keeps.bindExcept
      refine (rebuild_keeps (reqs i).1 module).mono ?_
      rintro (e | inst) r' hr'
      · obtain rfl := hr'
        exact ⟨rfl, rfl⟩
      obtain rfl := hr'
      exact hnext r inst module (hmodule module rfl)

theorem moduleOnly_keeps (hkey : x.keyOf (reqs i) = key) :
    Keeps (PoolInv x reqs) i
      (outcome (fun module r' => x.moduleHash module = key.moduleHash ∧ r.Own r') fun _ r' => r.Own r')
      (x.moduleOnly (reqs i).1 (reqs i).2 key.moduleHash).run r := by
  apply Keeps.bindExcept
  refine (build_keeps (reqs i).1 (reqs i).2 (congrArg PoolKey.moduleHash hkey)).mono ?_
  rintro (e | ⟨inst, module⟩) r' hr'
  · obtain rfl := hr'
    exact ⟨rfl, rfl⟩
  obtain ⟨hhash, rfl⟩ := hr'
  exact (quiet_releaseInstanceSlot _).liftBind fun _ => ⟨hhash, rfl, rfl⟩

/-- The last step of a build. -/
theorem poolsInsert_keeps {entry : PoolEntry} (hentry : EntryOf x key entry) :
    Keeps (PoolInv x reqs) i (fun _ r' => r' = r) (poolsInsert key entry) r := by
  apply keeps_aside
  intro s hkeyed
  refine ⟨{}, ⟨hkeyed.cache, ?_, hkeyed.inflight, hkeyed.cells⟩, rfl⟩
  intro key' entry' hentry'
  rcases lookup_insert_cases hentry' with ⟨rfl, rfl⟩ | ⟨-, hentry'⟩
  · exact hentry
  · exact hkeyed.entries key' entry' hentry'

theorem buildEntry_keeps (hpoolable : (reqs i).1.Poolable) (hkey : x.keyOf (reqs i) = key) :
    Keeps (PoolInv x reqs) i
      (outcome (fun entry r' => EntryOf x key entry ∧ r.Own r') fun _ r' => r.Own r')
      (x.buildEntry pool (reqs i).1 (reqs i).2 key).run r := by
  apply Keeps.liftBind
  refine (newChannel_keeps key _).mono ?_
  rintro c r ⟨rfl, rfl⟩
  have hinsert (module : Module) (hmodule : x.moduleHash module = c.key.moduleHash) (r' : Share)
      (hown : r.Own r') : Keeps (PoolInv x reqs) i
        (outcome (fun entry r' => EntryOf x c.key entry ∧ r.Own r') fun _ r' => r.Own r')
        (do
          poolsInsert c.key ⟨c, module⟩ return ⟨c, module⟩ : Fallible PoolEntry).run r' := by
    have hentry : EntryOf x c.key ⟨c, module⟩ := ⟨rfl, hmodule⟩
    apply Keeps.liftBind
    refine (poolsInsert_keeps hentry).mono ?_
    rintro _ _ rfl
    exact ⟨hentry, hown⟩
  apply Keeps.bindExcept
  refine (prewarm_keeps hpoolable hkey _ none r fun _ hm => nomatch hm).mono ?_
  rintro (e | (_ | module)) r' hr'
  · exact hr'
  · apply Keeps.bindExcept
    refine (moduleOnly_keeps hkey).mono ?_
    rintro (e | module) r'' hr''
    · exact hr'.2.trans hr''
    · exact hinsert module hr''.1 r'' (hr'.2.trans hr''.2)
  · exact hinsert module (hr'.1 module rfl) r' hr'.2

theorem inflightCell_keeps (key : PoolKey) :
    Keeps (PoolInv x reqs) i (fun cell r' => cell.key = key ∧ r' = r) (inflightCell key) r := by
  apply keeps_aside
  intro s hkeyed
  cases hcell : s.inflight.lookup key with
  | some cell => exact ⟨{}, hkeyed, hkeyed.inflight key cell hcell, rfl⟩
  | none =>
    refine ⟨{}, ⟨hkeyed.cache, hkeyed.entries, ?_, ?_⟩, rfl, rfl⟩
    · intro key' cell' hcell'
      rcases lookup_insert_cases hcell' with ⟨rfl, rfl⟩ | ⟨-, hcell'⟩
      · rfl
      · exact hkeyed.inflight key' cell' hcell'
    · intro cell' entry hentry
      rcases lookup_insert_cases hentry with ⟨-, hset⟩ | ⟨-, hentry⟩
      · cases hset
      · exact hkeyed.cells cell' entry hentry

theorem leaveCell_keeps (cell : CellRef) (value : OnceCell)
    (hvalue : ∀ entry, value = .set entry → EntryOf x cell.key entry) :
    Keeps (PoolInv x reqs) i (fun _ r' => r' = r) (leaveCell cell value) r := by
  apply keeps_aside
  intro s hkeyed
  refine ⟨{}, ⟨hkeyed.cache, hkeyed.entries, hkeyed.inflight, ?_⟩, rfl⟩
  intro cell' entry hentry
  rcases lookup_insert_cases hentry with ⟨rfl, hset⟩ | ⟨-, hentry⟩
  · exact hvalue entry hset.symm
  · exact hkeyed.cells cell' entry hentry

theorem enterCell_keeps (cell : CellRef) :
    Keeps (PoolInv x reqs) i
      (fun found r' => (∀ entry, found = some entry → EntryOf x cell.key entry) ∧ r' = r) (enterCell cell) r := by
  apply keeps_await
  intro s shares found s' hinv hr hact
  have hkeyed := hinv.1
  split at hact
  · next entry hentry =>
    cases hact
    refine ⟨r, hinv.aside hr {} hkeyed, ?_, rfl⟩
    intro entry' hentry'
    cases hentry'
    exact hkeyed.cells cell entry hentry
  · cases hact
  · cases hact
    refine ⟨r, hinv.aside hr {}
      ⟨hkeyed.cache, hkeyed.entries, hkeyed.inflight, ?_⟩, (fun _ hnone => nomatch hnone), rfl⟩
    intro cell' entry hentry
    rcases lookup_insert_cases hentry with ⟨-, hset⟩ | ⟨-, hentry⟩
    · cases hset
    · exact hkeyed.cells cell' entry hentry

/-- The entry of the cell is of the cell's key, whichever task built it. -/
theorem getOrTryInit_keeps {cell : CellRef} {init : Fallible PoolEntry}
    (hinit : Keeps (PoolInv x reqs) i
      (outcome (fun entry r' => EntryOf x cell.key entry ∧ r.Own r') fun _ r' => r.Own r') init.run r) :
    Keeps (PoolInv x reqs) i
      (outcome (fun entry r' => EntryOf x cell.key entry ∧ r.Own r') fun _ r' => r.Own r')
      (getOrTryInit cell init).run r := by
  apply Keeps.bind
  refine (enterCell_keeps cell).mono ?_
  rintro (_ | entry) _ ⟨hentry, rfl⟩
  · apply Keeps.bind
    refine hinit.mono ?_
    rintro (e | entry) r' hr'
    · apply Keeps.bind
      refine (leaveCell_keeps cell .empty fun _ hset => nomatch hset).mono ?_
      rintro _ _ rfl
      exact hr'
    · apply Keeps.bind
      refine (leaveCell_keeps cell (.set entry) ?_).mono ?_
      · intro entry' hset
        obtain rfl := OnceCell.set.inj hset
        exact hr'.1
      · rintro _ _ rfl
        exact hr'
  · exact ⟨hentry entry rfl, rfl, rfl⟩

theorem ensureEntry_keeps (hpoolable : (reqs i).1.Poolable) (hkey : x.keyOf (reqs i) = key) :
    Keeps (PoolInv x reqs) i
      (outcome (fun entry r' => EntryOf x key entry ∧ r.Own r') fun _ r' => r.Own r')
      (x.ensureEntry pool (reqs i).1 (reqs i).2 key).run r := by
  apply Keeps.liftBind
  apply keeps_aside
  intro s hkeyed
  refine ⟨{}, hkeyed, ?_⟩
  cases hentry : s.pools.lookup key with
  | some entry =>
    simp only [hentry]
    exact ⟨hkeyed.entries key entry hentry, rfl, rfl⟩
  | none =>
    simp only [hentry]
    apply Keeps.liftBind
    refine (inflightCell_keeps key).mono ?_
    rintro cell _ ⟨rfl, rfl⟩
    apply Keeps.bindExcept
    refine (getOrTryInit_keeps (buildEntry_keeps hpoolable hkey)).mono ?_
    rintro (e | entry) r' hr'
    · exact hr'
    apply Keeps.liftBind
    apply keeps_aside
    intro s hkeyed
    refine ⟨{}, ⟨hkeyed.cache, hkeyed.entries, ?_, hkeyed.cells⟩, hr'⟩
    intro key' cell' hcell'
    exact hkeyed.inflight key' cell' (lookup_erase_cases hcell').2

end Entries

/-! ## The invoke -/

section Invoke

variable {x : TensorWasmExecutor} {pool : InstancePoolConfig} {ι : Type} [DecidableEq ι]
  {reqs : ι → SpawnConfig × Module} {i : ι} {r : Share}

/-- The task has the id that it was given; it comes back to a channel only if it may. -/
def Acquired (x : TensorWasmExecutor) (request : SpawnConfig × Module) (pooled : PooledInstance) (r : Share) :
    Prop :=
  r = ⟨none, some pooled.id, none⟩ ∧
    ∀ hash, pooled.origin = some hash → request.1.Poolable ∧ hash = x.moduleHash request.2

theorem missSpawn_keeps (hcall : r.call = none) {origin : Option ModuleHash}
    (horigin : ∀ hash, origin = some hash → (reqs i).1.Poolable ∧ hash = x.moduleHash (reqs i).2) :
    Keeps (PoolInv x reqs) i (outcome (Acquired x (reqs i)) fun _ _ => True)
      (x.missSpawn (reqs i).1 (reqs i).2 origin).run r := by
  apply (quiet_changeStats _).liftBind
  intro _
  apply Keeps.bindExcept
  refine spawnInstance_keeps.mono ?_
  rintro (e | id) r' hr'
  · trivial
  obtain rfl := hr'
  exact ⟨by rw [hcall], horigin⟩

theorem acquire_keeps (hpool : x.pool ≠ none) (hcall : r.call = none) :
    Keeps (PoolInv x reqs) i (outcome (Acquired x (reqs i)) fun _ _ => True)
      (x.acquire pool (reqs i).1 (reqs i).2).run r := by
  apply (quiet_changeStats _).liftBind
  intro _
  split
  · exact missSpawn_keeps hcall (by simp)
  split
  · exact missSpawn_keeps hcall (by simp)
  next hstreaming hinput =>
  have hpoolable : (reqs i).1.Poolable := by
    refine ⟨Option.not_isSome_iff_eq_none.mp hstreaming, ?_⟩
    simpa using hinput
  apply Keeps.bindExcept
  refine (ensureEntry_keeps hpoolable rfl).mono ?_
  rintro (e | entry) r₁ hr₁
  · trivial
  obtain ⟨hentry, hown⟩ := hr₁
  apply Keeps.liftBind
  refine tryRecv_keeps.mono ?_
  rintro (_ | inst) r₂ hr₂
  · obtain rfl := hr₂
    refine missSpawn_keeps (hown.2.trans hcall) ?_
    intro hash hhash
    exact ⟨hpoolable, (Option.some.inj hhash).symm⟩
  · obtain ⟨content, hwarm, rfl⟩ := hr₂
    have hmade : MadeFor x reqs i content := .inl ⟨hpool, hpoolable, hentry.1 ▸ hwarm⟩
    apply (quiet_changeStats _).liftBind
    intro _
    apply (quiet_changeStats _).liftBind
    intro _
    apply Keeps.bindExcept
    refine (register_keeps rfl hmade).mono ?_
    rintro (e | id) r₃ hr₃
    · trivial
    obtain rfl := hr₃
    refine ⟨?_, ?_⟩
    · show (⟨none, some id, r₁.call⟩ : Share) = ⟨none, some id, none⟩
      rw [hown.2, hcall]
    · intro hash hhash
      exact ⟨hpoolable, (Option.some.inj hhash).symm⟩

theorem cloneHandle_keeps {id : InstanceId} (hid : r.id = some id) :
    Keeps (PoolInv x reqs) i
      (fun cloned r' => match cloned with
        | some inst => r' = { r with call := some inst }
        | none => r' = r)
      (TensorWasmExecutor.cloneHandle id) r := by
  apply keeps_access
  intro s shares hinv hr
  cases hlookup : s.registry.lookup id with
  | none => exact ⟨r, hinv.aside hr {} hinv.1, rfl⟩
  | some entry =>
    obtain ⟨hkeyed, loc, hs⟩ := hinv
    have hout := (hs.stores.registry id entry hlookup).1
    have hcloned : Consistent x reqs loc (s.changeHandles entry.inst (· + 1)) shares :=
      hs.modify hout fun _ => rfl
    have hcalled := hcloned.setCall (i := i) fun inst (hinst : some entry.inst = some inst) =>
      Option.some.inj hinst ▸ ⟨hout, (hcloned.backed i).idDue id (hr ▸ hid) entry hlookup⟩
    rw [hr] at hcalled
    exact ⟨_, ⟨SameMaps.keyed {} hkeyed, loc, hcalled⟩, rfl⟩

/-- The call is logged with a deadline of the request. -/
theorem runExport_keeps {inst : InstanceRef} (hcall : r.call = some inst) :
    Keeps (PoolInv x reqs) i (fun _ r' => r' = r) (x.runExport inst (reqs i).1) r := by
  apply keeps_consult
  intro fate s shares hinv hr
  obtain ⟨hkeyed, loc, hs⟩ := hinv
  obtain ⟨hout, content, hcontent, hdeadline⟩ := (hs.backed i).call inst (hr ▸ hcall)
  have hran : Consistent x reqs loc
      { s with heap := s.heap.modify inst fun i => { i with calls := i.calls + 1 } } shares :=
    hs.modify hout fun _ => rfl
  refine ⟨r, ⟨SameMaps.keyed {} hkeyed, loc, ?_⟩, rfl⟩
  rw [← hr, update_eq_self]
  refine hran.log ?_
  intro e he
  rw [hcontent] at he
  obtain rfl := List.mem_singleton.mp he
  exact ⟨i, content.deadlineDuration, rfl, hdeadline, rfl⟩

theorem dropHandle_keeps {inst : InstanceRef} (hcall : r.call = some inst) :
    Keeps (PoolInv x reqs) i (fun _ r' => r' = { r with call := none })
      (TensorWasmExecutor.dropHandle inst) r := by
  apply keeps_access
  intro s shares hinv hr
  obtain ⟨hkeyed, loc, hs⟩ := hinv
  have hout := ((hs.backed i).call inst (hr ▸ hcall)).1
  have hdropped : Consistent x reqs loc (s.changeHandles inst (· - 1)) shares :=
    hs.modify hout fun _ => rfl
  have hended := hdropped.setCall (i := i) fun inst (hinst : none = some inst) => nomatch hinst
  rw [hr] at hended
  exact ⟨_, ⟨SameMaps.keyed {} hkeyed, loc, hended⟩, rfl⟩

theorem callExportWithArgs_keeps {id : InstanceId} (hid : r.id = some id) (hcall : r.call = none) :
    Keeps (PoolInv x reqs) i (fun _ r' => r' = r) (x.callExportWithArgs id (reqs i).1).run r := by
  apply Keeps.bind
  refine (cloneHandle_keeps hid).mono ?_
  rintro (_ | inst) r₁ hr₁
  · exact hr₁
  · obtain rfl := hr₁
    apply Keeps.bind
    refine (runExport_keeps rfl).mono ?_
    rintro result _ rfl
    apply Keeps.bind
    refine (dropHandle_keeps rfl).mono ?_
    rintro _ _ rfl
    obtain ⟨held, id, call⟩ := r
    obtain rfl : call = none := hcall
    rfl

theorem quiet_removeEntry (id : InstanceId) : Quiet x reqs i (TensorWasmExecutor.removeEntry id) := by
  intro r
  apply keeps_access
  intro s shares hinv hr
  obtain ⟨hkeyed, loc, hs⟩ := hinv
  refine ⟨r, ⟨SameMaps.keyed {} hkeyed, loc, ?_⟩, rfl⟩
  rw [← hr, update_eq_self]
  exact hs.remove id

theorem terminate_keeps (id : InstanceId) :
    Keeps (PoolInv x reqs) i (fun _ _ => True) (x.terminate id).run r := by
  apply (quiet_removeEntry id).liftBind
  intro removed
  split
  · trivial
  · apply Keeps.lift
    exact (quiet_rollBack _ _).mono fun _ _ _ => trivial

theorem detach_keeps (id : InstanceId) : Quiet x reqs i (x.detachPooledInstance id) := by
  intro r
  apply (quiet_removeEntry id).andThen
  intro removed
  split
  · rfl
  · apply (quiet_read _).andThen
    intro unwrapped
    split
    · rfl
    · exact (quiet_rollBack _).andThen fun _ => rfl

/-- A replacement goes into a channel only for a request that the channel may serve. -/
theorem replenish_keeps {entry : PoolEntry} (hpoolable : (reqs i).1.Poolable)
    (hentry : EntryOf x (x.keyOf (reqs i)) entry) :
    Keeps (PoolInv x reqs) i (fun _ _ => True) (x.replenish (reqs i).1 entry) r := by
  have hdrop (r : Share) : Keeps (PoolInv x reqs) i (fun _ _ => True)
      (TensorWasmExecutor.dropReplacement (reqs i).1) r :=
    (quiet_releaseInstanceSlot _).andThen fun _ => (quiet_changeStats _ _).mono fun _ _ _ => trivial
  apply Keeps.bind
  refine (rebuild_keeps (reqs i).1 entry.module).mono ?_
  rintro (e | inst) r₁ hr₁
  · exact (quiet_changeStats _ _).mono fun _ _ _ => trivial
  obtain rfl := hr₁
  apply Keeps.bind
  apply keeps_consult
  intro fate s shares hinv hr
  refine ⟨_, hinv.aside hr {} hinv.1, ?_⟩
  split
  · exact hdrop _
  · apply Keeps.bind
    refine (trySend_keeps rfl ⟨i, entry.module, hpoolable, hentry.1.symm, ?_, rfl⟩).mono ?_
    · exact hentry.2.trans (congrArg PoolKey.moduleHash hentry.1.symm)
    · rintro sent _ rfl
      split
      · exact (quiet_changeStats _ _).mono fun _ _ _ => trivial
      · exact hdrop _

theorem release_keeps {pooled : PooledInstance}
    (horigin : ∀ hash, pooled.origin = some hash → (reqs i).1.Poolable ∧ hash = x.moduleHash (reqs i).2) :
    Keeps (PoolInv x reqs) i (fun _ _ => True) (x.release pool pooled (reqs i).1) r := by
  have hcountDrop (r : Share) : Keeps (PoolInv x reqs) i (fun _ _ => True) countDrop r :=
    (quiet_changeStats _ _).mono fun _ _ _ => trivial
  apply (detach_keeps pooled.id).andThen
  intro detached
  split
  · trivial
  apply (quiet_releaseInstanceSlot _).andThen
  intro _
  split
  · exact hcountDrop _
  next hash hback =>
  have hsome : pooled.origin = some hash := by
    split at hback
    · cases hback
    · exact hback
  obtain ⟨hpoolable, rfl⟩ := horigin hash hsome
  apply Keeps.bind
  apply keeps_aside
  intro s hkeyed
  refine ⟨{}, hkeyed, ?_⟩
  split
  · exact hcountDrop _
  next entry hentry =>
  apply (quiet_read _).andThen
  intro full
  split
  · exact hcountDrop _
  · exact replenish_keeps hpoolable (hkeyed.entries _ entry hentry)

theorem invoke_keeps (hcall : r.call = none) :
    Keeps (PoolInv x reqs) i (fun _ _ => True) (x.invoke (reqs i).1 (reqs i).2).run r := by
  unfold TensorWasmExecutor.invoke
  cases hpool : x.pool with
  | some pool =>
    apply Keeps.bindExcept
    refine (acquire_keeps (hpool ▸ Option.some_ne_none pool) hcall).mono ?_
    rintro (e | pooled) r₁ hr₁
    · trivial
    obtain ⟨rfl, horigin⟩ := hr₁
    apply Keeps.bind
    refine (callExportWithArgs_keeps rfl rfl).mono ?_
    rintro result _ rfl
    apply Keeps.bind
    exact (release_keeps horigin).mono fun _ _ _ => trivial
  | none =>
    apply Keeps.bindExcept
    refine spawnInstance_keeps.mono ?_
    rintro (e | id) r₁ hr₁
    · trivial
    obtain rfl := hr₁
    apply Keeps.bind
    refine (callExportWithArgs_keeps (r := ⟨none, some id, r.call⟩) rfl hcall).mono ?_
    rintro result _ rfl
    apply Keeps.bind
    exact (terminate_keeps id).mono fun _ _ _ => trivial

end Invoke

end TensorWasm.Executor
