import TensorWasm.Exec.InstancePool
import TensorWasm.Lib.Tally

/-!
# Who holds which instance

The invariant of concurrent invokes through the pool. Every instance is in one place: in a channel, at hand in
one task, or out, which is where a registered instance is. An instance that is not out is exactly as it was
made; one that is in a channel was made for a request that may use that channel. What a task knows on its own
account, its share, is the instance at hand, the id it was given and the instance it is calling.
-/

namespace TensorWasm.Executor

open Lib List
open Wasm (Module)
open Function (update update_of_ne update_self)

/-! ## What an instance is made for -/

section Made

variable (x : TensorWasmExecutor) {ι : Type} (reqs : ι → SpawnConfig × Module)

/-- Neither a stream nor an input, so that a channel may serve the request. -/
def SpawnConfig.Poolable (cfg : SpawnConfig) : Prop := cfg.streaming = none ∧ cfg.input = []

def TensorWasmExecutor.keyOf (request : SpawnConfig × Module) : PoolKey :=
  ⟨request.1.tenantId, x.moduleHash request.2⟩

/-- The module that a fresh spawn instantiates. -/
def TensorWasmExecutor.offloaded (request : SpawnConfig × Module) : Module :=
  Exec.maybeRewriteForOffload x.reencoder x.blake3 x.config.autoOffload x.jitCache
    (x.config.autoOffloadDetector.getD .default) request.1.tenantId request.2

/-- As it was made for a request that a channel of this key may serve. -/
def WarmFor (key : PoolKey) (inst : Instance) : Prop :=
  ∃ j module, (reqs j).1.Poolable ∧ x.keyOf (reqs j) = key ∧ x.moduleHash module = key.moduleHash ∧
    inst = Instance.new (reqs j).1 module

/-- As it was made for this request or, if there are channels and one may serve it, for one of the same key. -/
def MadeFor (i : ι) (inst : Instance) : Prop :=
  x.pool ≠ none ∧ (reqs i).1.Poolable ∧ WarmFor x reqs (x.keyOf (reqs i)) inst ∨
    ∃ module, x.moduleHash module = x.moduleHash (x.offloaded (reqs i)) ∧ inst = Instance.new (reqs i).1 module

/-- The deadline of an instance that was made for this request. -/
def DeadlineFor (i : ι) (deadline : Option Duration) : Prop :=
  ∃ inst, MadeFor x reqs i inst ∧ inst.deadlineDuration = deadline

end Made

/-! ## The invariant -/

/-- What a task has on its own account. -/
structure Share where
  /-- The instance at hand, and what it is like. -/
  held : Option (InstanceRef × Instance)
  /-- The id it was given. -/
  id : Option InstanceId
  /-- The instance it is calling. -/
  call : Option InstanceRef

inductive Place (ι : Type)
  | fresh
  | warm (c : ChannelRef)
  | held (i : ι)
  | out

section Invariant

variable (x : TensorWasmExecutor) {ι : Type} (reqs : ι → SpawnConfig × Module)

def EntryOf (key : PoolKey) (entry : PoolEntry) : Prop :=
  entry.channel.key = key ∧ x.moduleHash entry.module = key.moduleHash

/-- What is found under a key, or in a cell or channel that was made for a key, is of that key. -/
structure Keyed (s : State) : Prop where
  cache : ∀ entry ∈ s.moduleCache, x.moduleHash entry.2 = entry.1
  entries : ∀ key entry, s.pools.lookup key = some entry → EntryOf x key entry
  inflight : ∀ key cell, s.inflight.lookup key = some cell → cell.key = key
  cells : ∀ cell entry, s.cells.lookup cell = some (.set entry) → EntryOf x cell.key entry

/-- Where instances are, as far as every task can see it. -/
structure Stores (loc : InstanceRef → Place ι) (s : State) : Prop where
  fresh : ∀ r, s.heap.length ≤ r → loc r = .fresh
  once : ∀ c ch, s.channels.lookup c = some ch → ch.queue.Nodup
  queues : ∀ c ch, s.channels.lookup c = some ch → ∀ r ∈ ch.queue,
    loc r = .warm c ∧ ∃ inst, s.heap[r]? = some inst ∧ WarmFor x reqs c.key inst
  served : ∀ h ∈ s.served, loc h.inst = .out ∧
    ∃ i, h.caller = (reqs i).1 ∧ h.wasm = (reqs i).2 ∧ MadeFor x reqs i h.snapshot
  servedOnce : (s.served.map Served.inst).Nodup
  registry : ∀ id e, s.registry.lookup id = some e → loc e.inst = .out ∧ id < s.nextInstanceId
  log : ∀ h ∈ s.callLog, ∃ i deadline, h.caller = (reqs i).1 ∧ DeadlineFor x reqs i deadline ∧
    h.budget = x.effectiveCallBudget deadline

/-- The instance is there, with a deadline of a request. -/
def Due (s : State) (i : ι) (r : InstanceRef) : Prop :=
  ∃ inst, s.heap[r]? = some inst ∧ DeadlineFor x reqs i inst.deadlineDuration

/-- A share is what the state says. -/
structure Backed (loc : InstanceRef → Place ι) (s : State) (i : ι) (share : Share) : Prop where
  held : ∀ r inst, share.held = some (r, inst) → loc r = .held i ∧ s.heap[r]? = some inst
  idBelow : ∀ id, share.id = some id → id < s.nextInstanceId
  idDue : ∀ id, share.id = some id → ∀ e, s.registry.lookup id = some e → Due x reqs s i e.inst
  call : ∀ r, share.call = some r → loc r = .out ∧ Due x reqs s i r

structure Consistent (loc : InstanceRef → Place ι) (s : State) (shares : ι → Share) : Prop where
  stores : Stores x reqs loc s
  backed : ∀ i, Backed x reqs loc s i (shares i)
  idsApart : ∀ i j id, (shares i).id = some id → (shares j).id = some id → i = j

/-- The invariant that every action of every invoke keeps. -/
def PoolInv (s : State) (shares : ι → Share) : Prop :=
  Keyed x s ∧ ∃ loc, Consistent x reqs loc s shares

end Invariant

/-! ## What keeps it -/

section Steps

variable {x : TensorWasmExecutor} {ι : Type} {reqs : ι → SpawnConfig × Module}
  {loc loc' : InstanceRef → Place ι} {s s' : State} {shares : ι → Share} {i j : ι} {share : Share}

/-- The heap as a task sees it: what is at hand in it is as it was, and no deadline changes. -/
structure HeapKept (loc loc' : InstanceRef → Place ι) (s s' : State) (j : ι) : Prop where
  held : ∀ r, loc r = .held j → loc' r = .held j ∧ s'.heap[r]? = s.heap[r]?
  out : ∀ r, loc r = .out → loc' r = .out
  deadline : ∀ (r : InstanceRef) inst, s.heap[r]? = some inst →
    ∃ inst', s'.heap[r]? = some inst' ∧ inst'.deadlineDuration = inst.deadlineDuration

theorem HeapKept.due (h : HeapKept loc loc' s s' j) {r : InstanceRef} (hdue : Due x reqs s i r) :
    Due x reqs s' i r := by
  obtain ⟨inst, hinst, hdeadline⟩ := hdue
  obtain ⟨inst', hinst', hsame⟩ := h.deadline r inst hinst
  exact ⟨inst', hinst', hsame ▸ hdeadline⟩

theorem HeapKept.refl (loc : InstanceRef → Place ι) (hheap : s'.heap = s.heap) : HeapKept loc loc s s' j where
  held _ hr := ⟨hr, hheap ▸ rfl⟩
  out _ hr := hr
  deadline _ inst hinst := ⟨inst, hheap ▸ hinst, rfl⟩

theorem Backed.transport (h : Backed x reqs loc s j share) (hheap : HeapKept loc loc' s s' j)
    (hids : s.nextInstanceId ≤ s'.nextInstanceId)
    (hregistry : ∀ id, share.id = some id → ∀ e, s'.registry.lookup id = some e →
      s.registry.lookup id = some e) : Backed x reqs loc' s' j share where
  held r inst hr := by
    obtain ⟨hloc, hinst⟩ := h.held r inst hr
    obtain ⟨hloc', hsame⟩ := hheap.held r hloc
    exact ⟨hloc', hsame.trans hinst⟩
  idBelow id hid := (h.idBelow id hid).trans_le hids
  idDue id hid e he := hheap.due (h.idDue id hid e (hregistry id hid e he))
  call r hr := ⟨hheap.out r (h.call r hr).1, hheap.due (h.call r hr).2⟩

/-- Only counters and maps of the pool have changed. -/
structure Aside (s s' : State) : Prop where
  heap : s'.heap = s.heap := by rfl
  channels : s'.channels = s.channels := by rfl
  served : s'.served = s.served := by rfl
  registry : s'.registry = s.registry := by rfl
  nextInstanceId : s'.nextInstanceId = s.nextInstanceId := by rfl
  callLog : s'.callLog = s.callLog := by rfl

theorem Aside.stores (h : Aside s s') (hstores : Stores x reqs loc s) : Stores x reqs loc s' where
  fresh := h.heap ▸ hstores.fresh
  once := h.channels ▸ hstores.once
  queues := by
    rw [h.channels, h.heap]
    exact hstores.queues
  served := h.served ▸ hstores.served
  servedOnce := h.served ▸ hstores.servedOnce
  registry := by
    rw [h.registry, h.nextInstanceId]
    exact hstores.registry
  log := h.callLog ▸ hstores.log

theorem Aside.consistent (h : Aside s s') (hs : Consistent x reqs loc s shares) :
    Consistent x reqs loc s' shares where
  stores := h.stores hs.stores
  backed j := (hs.backed j).transport (.refl loc h.heap) h.nextInstanceId.ge
    fun _ _ _ he => h.registry ▸ he
  idsApart := hs.idsApart

variable {r₀ : InstanceRef} {inst₀ : Instance}

/-- One instance, which was not out, has another place. The others are where and as they were. -/
structure Moved (loc loc' : InstanceRef → Place ι) (s s' : State) (r₀ : InstanceRef) : Prop where
  inside : loc r₀ ≠ .out
  place : ∀ r, r ≠ r₀ → loc' r = loc r
  heap : ∀ r, r ≠ r₀ → s'.heap[r]? = s.heap[r]?
  deadline : ∀ inst, s.heap[r₀]? = some inst →
    ∃ inst', s'.heap[r₀]? = some inst' ∧ inst'.deadlineDuration = inst.deadlineDuration

/-- Only the place has changed, and what the heap holds of the instance but its deadline. -/
theorem Moved.update {place : Place ι} (hloc : loc r₀ ≠ .out)
    (hheap : ∀ r, r ≠ r₀ → s'.heap[r]? = s.heap[r]?)
    (hdeadline : ∀ inst, s.heap[r₀]? = some inst →
      ∃ inst', s'.heap[r₀]? = some inst' ∧ inst'.deadlineDuration = inst.deadlineDuration) :
    Moved loc (update loc r₀ place) s s' r₀ :=
  ⟨hloc, fun _ hr => update_of_ne hr _ _, hheap, hdeadline⟩

theorem Moved.out (h : Moved loc loc' s s' r₀) {r : InstanceRef} (hr : loc r = .out) : loc' r = .out :=
  (h.place r fun heq => h.inside (heq ▸ hr)).trans hr

/-- The move as a task sees it that does not have the instance at hand. -/
theorem Moved.kept (h : Moved loc loc' s s' r₀) (hj : loc r₀ ≠ .held j) : HeapKept loc loc' s s' j where
  held r hr := by
    have hne : r ≠ r₀ := fun heq => hj (heq ▸ hr)
    exact ⟨(h.place r hne).trans hr, h.heap r hne⟩
  out _ hr := h.out hr
  deadline r inst hinst := by
    by_cases hr : r = r₀
    · subst hr
      exact h.deadline inst hinst
    · exact ⟨inst, (h.heap r hr).trans hinst, rfl⟩

/-- What is in the channels, the history and the registry of the new state was there, or is where the
new places say. -/
theorem Moved.stores (h : Moved loc loc' s s' r₀) (hs : Stores x reqs loc s)
    (hfresh : ∀ r, s'.heap.length ≤ r → r ≠ r₀ ∧ s.heap.length ≤ r)
    (honce : ∀ c ch, s'.channels.lookup c = some ch → ch.queue.Nodup)
    (hqueues : ∀ c ch, s'.channels.lookup c = some ch → ∀ r ∈ ch.queue,
      (r ≠ r₀ ∧ ∃ ch, s.channels.lookup c = some ch ∧ r ∈ ch.queue) ∨
        loc' r = .warm c ∧ ∃ inst, s'.heap[r]? = some inst ∧ WarmFor x reqs c.key inst)
    (hserved : ∀ e ∈ s'.served, e ∈ s.served ∨ loc' e.inst = .out ∧
      ∃ i, e.caller = (reqs i).1 ∧ e.wasm = (reqs i).2 ∧ MadeFor x reqs i e.snapshot)
    (hservedOnce : (s'.served.map Served.inst).Nodup) (hids : s'.nextInstanceId = s.nextInstanceId)
    (hregistry : ∀ id e, s'.registry.lookup id = some e →
      s.registry.lookup id = some e ∨ loc' e.inst = .out ∧ id < s.nextInstanceId)
    (hlog : s'.callLog = s.callLog) : Stores x reqs loc' s' where
  fresh r hr := by
    obtain ⟨hne, hr⟩ := hfresh r hr
    exact (h.place r hne).trans (hs.fresh r hr)
  once := honce
  queues c ch hch r hr := by
    rcases hqueues c ch hch r hr with ⟨hne, ch', hch', hr'⟩ | hnew
    · obtain ⟨hloc, inst, hinst, hwarm⟩ := hs.queues c ch' hch' r hr'
      exact ⟨(h.place r hne).trans hloc, inst, (h.heap r hne).trans hinst, hwarm⟩
    · exact hnew
  served e he := by
    rcases hserved e he with he | hnew
    · exact (hs.served e he).imp_left h.out
    · exact hnew
  servedOnce := hservedOnce
  registry id e he := by
    rw [hids]
    rcases hregistry id e he with he | hnew
    · exact (hs.registry id e he).imp_left h.out
    · exact hnew
  log := hlog ▸ hs.log

/-! ## Changes in place -/

variable (h : Consistent x reqs loc s shares)

include h

/-- The ids of the other tasks are not the one of this task. -/
theorem Consistent.id_ne {id : InstanceId} (hid : (shares i).id = some id) (hj : j ≠ i) : (shares j).id ≠ some id :=
  fun hsame => hj (h.idsApart j i id hsame hid)

theorem Consistent.remove (id : InstanceId) :
    Consistent x reqs loc { s with registry := s.registry.erase id } shares where
  stores := ⟨h.stores.fresh, h.stores.once, h.stores.queues, h.stores.served, h.stores.servedOnce,
    fun id' e he => h.stores.registry id' e (lookup_erase_cases he).2, h.stores.log⟩
  backed j := (h.backed j).transport (.refl loc rfl) le_rfl fun _ _ _ he => (lookup_erase_cases he).2
  idsApart := h.idsApart

theorem Consistent.newChannel (c : ChannelRef) (capacity allocated : Nat) :
    Consistent x reqs loc
      { s with channels := s.channels.insert c ⟨capacity, []⟩, allocated := allocated } shares where
  stores := by
    refine ⟨h.stores.fresh, ?_, ?_, h.stores.served, h.stores.servedOnce, h.stores.registry, h.stores.log⟩
    · intro c' ch' hch'
      rcases lookup_insert_cases hch' with ⟨rfl, rfl⟩ | ⟨-, hch'⟩
      · exact nodup_nil
      · exact h.stores.once c' ch' hch'
    · intro c' ch' hch' r hr
      rcases lookup_insert_cases hch' with ⟨rfl, rfl⟩ | ⟨-, hch'⟩
      · cases hr
      · exact h.stores.queues c' ch' hch' r hr
  backed j := (h.backed j).transport (.refl loc rfl) le_rfl fun _ _ _ he => he
  idsApart := h.idsApart

/-- An instance that is out changes, but for its deadline. -/
theorem Consistent.modify {r₀ : InstanceRef} (hout : loc r₀ = .out)
    {f : Instance → Instance} (hf : ∀ inst, (f inst).deadlineDuration = inst.deadlineDuration) :
    Consistent x reqs loc { s with heap := s.heap.modify r₀ f } shares := by
  have hheap (r : InstanceRef) (hr : loc r ≠ .out) : (s.heap.modify r₀ f)[r]? = s.heap[r]? := by
    have hne : r₀ ≠ r := fun heq => hr (heq ▸ hout)
    simp [List.getElem?_modify, if_neg hne]
  refine ⟨⟨?_, h.stores.once, ?_, h.stores.served, h.stores.servedOnce, h.stores.registry, h.stores.log⟩,
    ?_, h.idsApart⟩
  · intro r hr
    rw [length_modify] at hr
    exact h.stores.fresh r hr
  · intro c ch hch r hr
    obtain ⟨hloc, inst, hinst, hwarm⟩ := h.stores.queues c ch hch r hr
    exact ⟨hloc, inst, (hheap r (by simp [hloc])).trans hinst, hwarm⟩
  · intro j
    refine (h.backed j).transport ⟨?_, fun _ hr => hr, ?_⟩ le_rfl fun _ _ _ he => he
    · intro r hr
      exact ⟨hr, hheap r (by simp [hr])⟩
    · intro r inst hinst
      refine ⟨if r₀ = r then f inst else inst, ?_, ?_⟩
      · show (s.heap.modify r₀ f)[r]? = _
        rw [List.getElem?_modify, hinst]
        rfl
      · split
        · exact hf inst
        · rfl

theorem Consistent.log {records : List CallRecord}
    (hrecords : ∀ e ∈ records, ∃ i deadline, e.caller = (reqs i).1 ∧ DeadlineFor x reqs i deadline ∧
      e.budget = x.effectiveCallBudget deadline) :
    Consistent x reqs loc { s with callLog := records ++ s.callLog } shares where
  stores := by
    refine ⟨h.stores.fresh, h.stores.once, h.stores.queues, h.stores.served, h.stores.servedOnce,
      h.stores.registry, ?_⟩
    intro e he
    rcases mem_append.mp he with he | he
    · exact hrecords e he
    · exact h.stores.log e he
  backed j := (h.backed j).transport (.refl loc rfl) le_rfl fun _ _ _ he => he
  idsApart := h.idsApart

/-! ## Instances that move -/

variable [DecidableEq ι]

/-- One task acts: its new share is what the new state says, and so are those of the others. -/
theorem Consistent.act (hstores : Stores x reqs loc' s') (hown : Backed x reqs loc' s' i share)
    (hothers : ∀ j, j ≠ i → Backed x reqs loc s j (shares j) → Backed x reqs loc' s' j (shares j))
    (hid : ∀ id, share.id = some id → ∀ j, j ≠ i → (shares j).id ≠ some id) :
    Consistent x reqs loc' s' (update shares i share) where
  stores := hstores
  backed j := by
    by_cases hj : j = i
    · subst hj
      rwa [update_self]
    · rw [update_of_ne hj]
      exact hothers j hj (h.backed j)
  idsApart j k id hj hk := by
    by_cases hji : j = i <;> by_cases hki : k = i
    · exact hji.trans hki.symm
    · subst hji
      rw [update_self] at hj
      rw [update_of_ne hki] at hk
      exact absurd hk (hid id hj k hki)
    · subst hki
      rw [update_self] at hk
      rw [update_of_ne hji] at hj
      exact absurd hj (hid id hk j hji)
    · rw [update_of_ne hji] at hj
      rw [update_of_ne hki] at hk
      exact h.idsApart j k id hj hk

/-- A new instance is at hand in the task that made it. -/
theorem Consistent.adopt (i : ι) (inst : Instance) :
    Consistent x reqs (update loc s.heap.length (.held i)) { s with heap := s.heap ++ [inst] }
      (update shares i { shares i with held := some (s.heap.length, inst) }) := by
  have hfresh : loc s.heap.length = .fresh := h.stores.fresh _ le_rfl
  have hmoved : Moved loc (update loc s.heap.length (.held i)) s
      { s with heap := s.heap ++ [inst] } s.heap.length := by
    refine .update (by simp [hfresh]) ?_ ?_
    · intro r hr
      rcases Nat.lt_or_gt_of_ne hr with hlt | hgt
      · exact List.getElem?_append_left hlt
      · rw [List.getElem?_eq_none hgt.le, List.getElem?_eq_none]
        simpa using hgt
    · intro inst' hinst'
      exact absurd (List.getElem?_eq_some_iff.mp hinst').1 (Nat.lt_irrefl _)
  have hkept (j : ι) := hmoved.kept (j := j) (by simp [hfresh])
  refine h.act ?_ ?_ ?_ fun id hid j hj => h.id_ne hid hj
  · refine hmoved.stores h.stores ?_ h.stores.once ?_ (fun _ he => .inl he) h.stores.servedOnce rfl
      (fun _ _ he => .inl he) rfl
    · intro r hr
      rw [length_append, length_singleton] at hr
      exact ⟨Nat.ne_of_gt hr, Nat.le_of_succ_le hr⟩
    · intro c ch hch r hr
      refine .inl ⟨?_, ch, hch, hr⟩
      rintro rfl
      exact nomatch hfresh.symm.trans (h.stores.queues c ch hch _ hr).1
  · have hbacked := (h.backed i).transport (hkept i) le_rfl fun _ _ _ he => he
    refine ⟨?_, hbacked.idBelow, hbacked.idDue, hbacked.call⟩
    intro r inst' hr
    cases hr
    exact ⟨update_self _ _ _, List.getElem?_concat_length⟩
  · intro j _ hbacked
    exact hbacked.transport (hkept j) le_rfl fun _ _ _ he => he

variable {c : ChannelRef}

omit [DecidableEq ι] in
/-- An instance at hand is in no channel. -/
theorem Consistent.not_queued (hloc : loc r₀ = .held i) {ch : Channel} (hch : s.channels.lookup c = some ch) :
    r₀ ∉ ch.queue := by
  intro hmem
  exact nomatch hloc.symm.trans (h.stores.queues c ch hch r₀ hmem).1

/-- An instance at hand goes to the end of a channel that it was made for. -/
theorem Consistent.send (hheld : (shares i).held = some (r₀, inst₀)) {ch : Channel}
    (hch : s.channels.lookup c = some ch) (hwarm : WarmFor x reqs c.key inst₀) :
    Consistent x reqs (update loc r₀ (.warm c))
      { s with channels := s.channels.insert c { ch with queue := ch.queue ++ [r₀] } }
      (update shares i { shares i with held := none }) := by
  obtain ⟨hloc₀, hinst₀⟩ := (h.backed i).held r₀ inst₀ hheld
  have hmoved : Moved loc (update loc r₀ (.warm c)) s
      { s with channels := s.channels.insert c { ch with queue := ch.queue ++ [r₀] } } r₀ :=
    .update (by simp [hloc₀]) (fun _ _ => rfl) fun inst hinst => ⟨inst, hinst, rfl⟩
  have hold {c' : ChannelRef} {ch' : Channel} {r : InstanceRef} (hch' : s.channels.lookup c' = some ch')
      (hr : r ∈ ch'.queue) : r ≠ r₀ := fun heq => h.not_queued hloc₀ hch' (heq ▸ hr)
  refine h.act ?_ ?_ ?_ fun id hid j hj => h.id_ne hid hj
  · refine hmoved.stores h.stores ?_ ?_ ?_ (fun _ he => .inl he) h.stores.servedOnce rfl
      (fun _ _ he => .inl he) rfl
    · intro r hr
      refine ⟨?_, hr⟩
      rintro rfl
      exact nomatch hloc₀.symm.trans (h.stores.fresh r hr)
    · intro c' ch' hch'
      rcases lookup_insert_cases hch' with ⟨rfl, rfl⟩ | ⟨-, hch'⟩
      · refine nodup_append.mpr ⟨h.stores.once c' ch hch, nodup_singleton r₀, ?_⟩
        intro r hr r' hr' heq
        exact hold hch hr (heq.trans (mem_singleton.mp hr'))
      · exact h.stores.once c' ch' hch'
    · intro c' ch' hch' r hr
      rcases lookup_insert_cases hch' with ⟨rfl, rfl⟩ | ⟨-, hch'⟩
      · rcases mem_append.mp hr with hr | hr
        · exact .inl ⟨hold hch hr, ch, hch, hr⟩
        · obtain rfl := mem_singleton.mp hr
          exact .inr ⟨update_self _ _ _, inst₀, hinst₀, hwarm⟩
      · exact .inl ⟨hold hch' hr, ch', hch', hr⟩
  · refine ⟨(fun _ _ hnone => nomatch hnone), (h.backed i).idBelow, (h.backed i).idDue, ?_⟩
    intro r hr
    exact ((h.backed i).call r hr).imp_left hmoved.out
  · intro j hj hbacked
    refine hbacked.transport (hmoved.kept ?_) le_rfl fun _ _ _ he => he
    rw [hloc₀]
    exact fun heq => hj (Place.held.inj heq).symm

/-- The first instance of a channel comes to hand. -/
theorem Consistent.receive {capacity : Nat} {queue : List InstanceRef}
    (hch : s.channels.lookup c = some ⟨capacity, r₀ :: queue⟩) (hinst₀ : s.heap[r₀]? = some inst₀) (i : ι) :
    Consistent x reqs (update loc r₀ (.held i))
      { s with channels := s.channels.insert c ⟨capacity, queue⟩ }
      (update shares i { shares i with held := some (r₀, inst₀) }) := by
  have hloc₀ : loc r₀ = .warm c := (h.stores.queues c _ hch r₀ mem_cons_self).1
  obtain ⟨hnotMem, hnodup⟩ := nodup_cons.mp (h.stores.once c _ hch)
  have hmoved : Moved loc (update loc r₀ (.held i)) s
      { s with channels := s.channels.insert c ⟨capacity, queue⟩ } r₀ :=
    .update (by simp [hloc₀]) (fun _ _ => rfl) fun inst hinst => ⟨inst, hinst, rfl⟩
  have hkept (j : ι) := hmoved.kept (j := j) (by simp [hloc₀])
  refine h.act ?_ ?_ ?_ fun id hid j hj => h.id_ne hid hj
  · refine hmoved.stores h.stores ?_ ?_ ?_ (fun _ he => .inl he) h.stores.servedOnce rfl
      (fun _ _ he => .inl he) rfl
    · intro r hr
      refine ⟨?_, hr⟩
      rintro rfl
      exact nomatch hloc₀.symm.trans (h.stores.fresh r hr)
    · intro c' ch' hch'
      rcases lookup_insert_cases hch' with ⟨rfl, rfl⟩ | ⟨-, hch'⟩
      · exact hnodup
      · exact h.stores.once c' ch' hch'
    · intro c' ch' hch' r hr
      rcases lookup_insert_cases hch' with ⟨rfl, rfl⟩ | ⟨hne, hch'⟩
      · exact .inl ⟨fun heq => hnotMem (heq ▸ hr), _, hch, mem_cons_of_mem _ hr⟩
      · refine .inl ⟨?_, ch', hch', hr⟩
        rintro rfl
        exact hne (Place.warm.inj ((h.stores.queues c' ch' hch' r hr).1.symm.trans hloc₀))
  · have hbacked := (h.backed i).transport (hkept i) le_rfl fun _ _ _ he => he
    refine ⟨?_, hbacked.idBelow, hbacked.idDue, hbacked.call⟩
    intro r inst hr
    cases hr
    exact ⟨update_self _ _ _, hinst₀⟩
  · intro j _ hbacked
    exact hbacked.transport (hkept j) le_rfl fun _ _ _ he => he

/-- An instance at hand goes into the registry under the id of the task. -/
theorem Consistent.register (hheld : (shares i).held = some (r₀, inst₀))
    {id : InstanceId} (hid : (shares i).id = some id) (hmade : MadeFor x reqs i inst₀) :
    Consistent x reqs (update loc r₀ .out)
      (s.enter id r₀ inst₀ (reqs i).1 (reqs i).2)
      (update shares i { shares i with held := none }) := by
  obtain ⟨hloc₀, hinst₀⟩ := (h.backed i).held r₀ inst₀ hheld
  have hbound : r₀ < s.heap.length := (List.getElem?_eq_some_iff.mp hinst₀).1
  have hset₀ : (s.enter id r₀ inst₀ (reqs i).1 (reqs i).2).heap[r₀]? =
      some { inst₀ with instanceId := id } := List.getElem?_set_self hbound
  have hmoved : Moved loc (update loc r₀ .out) s
      (s.enter id r₀ inst₀ (reqs i).1 (reqs i).2) r₀ := by
    refine .update (by simp [hloc₀]) (fun r hr => List.getElem?_set_ne (Ne.symm hr)) ?_
    intro inst hinst
    obtain rfl := Option.mem_unique hinst₀ hinst
    exact ⟨_, hset₀, rfl⟩
  refine h.act ?_ ?_ ?_ fun id hid j hj => h.id_ne hid hj
  · refine hmoved.stores h.stores ?_ h.stores.once ?_ ?_ ?_ rfl ?_ rfl
    · intro r hr
      rw [State.enter, length_set] at hr
      exact ⟨Nat.ne_of_gt (hbound.trans_le hr), hr⟩
    · intro c ch hch r hr
      exact .inl ⟨fun heq => h.not_queued hloc₀ hch (heq ▸ hr), ch, hch, hr⟩
    · intro e he
      rcases mem_cons.mp he with rfl | he
      · exact .inr ⟨update_self _ _ _, i, rfl, rfl, hmade⟩
      · exact .inl he
    · refine nodup_cons.mpr ⟨?_, h.stores.servedOnce⟩
      intro hmem
      obtain ⟨e, he, heq⟩ := mem_map.mp hmem
      have hloc := (h.stores.served e he).1
      rw [heq, hloc₀] at hloc
      cases hloc
    · intro id' e he
      rcases lookup_insert_cases he with ⟨rfl, rfl⟩ | ⟨-, he⟩
      · exact .inr ⟨update_self _ _ _, (h.backed i).idBelow id' hid⟩
      · exact .inl he
  · refine ⟨(fun _ _ hnone => nomatch hnone), (h.backed i).idBelow, ?_, ?_⟩
    · intro id' hid' e he
      obtain rfl : id = id' := Option.mem_unique hid hid'
      rcases lookup_insert_cases he with ⟨-, rfl⟩ | ⟨hne, -⟩
      · exact ⟨_, hset₀, inst₀, hmade, rfl⟩
      · exact absurd rfl hne
    · intro r hr
      obtain ⟨hloc, inst, hinst, hdeadline⟩ := (h.backed i).call r hr
      have hne : r ≠ r₀ := fun heq => hmoved.inside (heq ▸ hloc)
      exact ⟨hmoved.out hloc, inst, (hmoved.heap r hne).trans hinst, hdeadline⟩
  · intro j hj hbacked
    refine hbacked.transport (hmoved.kept ?_) le_rfl ?_
    · rw [hloc₀]
      exact fun heq => hj (Place.held.inj heq).symm
    · intro id' hid' e he
      rcases lookup_insert_cases he with ⟨rfl, -⟩ | ⟨-, he⟩
      · exact absurd hid' (h.id_ne hid hj)
      · exact he

/-! ## Shares that change -/

/-- A task takes the next id. -/
theorem Consistent.allocate (i : ι) :
    Consistent x reqs loc { s with nextInstanceId := s.nextInstanceId + 1 }
      (update shares i { shares i with id := some s.nextInstanceId }) := by
  refine h.act ?_ ?_ ?_ ?_
  · refine ⟨h.stores.fresh, h.stores.once, h.stores.queues, h.stores.served, h.stores.servedOnce, ?_, h.stores.log⟩
    intro id e he
    obtain ⟨hloc, hbelow⟩ := h.stores.registry id e he
    exact ⟨hloc, Nat.lt_succ_of_lt hbelow⟩
  · refine ⟨(h.backed i).held, ?_, ?_, (h.backed i).call⟩
    · intro id hid
      cases hid
      exact Nat.lt_succ_self _
    · intro id hid e he
      cases hid
      exact absurd (h.stores.registry _ e he).2 (Nat.lt_irrefl _)
  · intro j _ hbacked
    exact hbacked.transport (.refl loc rfl) (Nat.le_succ _) fun _ _ _ he => he
  · intro id hid j _ hsame
    cases hid
    exact Nat.lt_irrefl _ ((h.backed j).idBelow _ hsame)

/-- A task begins or ends a call of an instance. -/
theorem Consistent.setCall {call : Option InstanceRef}
    (hcall : ∀ r, call = some r → loc r = .out ∧ Due x reqs s i r) :
    Consistent x reqs loc s (update shares i { shares i with call := call }) :=
  h.act h.stores ⟨(h.backed i).held, (h.backed i).idBelow, (h.backed i).idDue, hcall⟩
    (fun _ _ hbacked => hbacked) fun _ hid _ hj => h.id_ne hid hj

/-- A task lets go of the instance at hand. -/
theorem Consistent.letGo (i : ι) : Consistent x reqs loc s (update shares i { shares i with held := none }) :=
  h.act h.stores ⟨(fun _ _ hnone => nomatch hnone), (h.backed i).idBelow, (h.backed i).idDue, (h.backed i).call⟩
    (fun _ _ hbacked => hbacked) fun _ hid _ hj => h.id_ne hid hj

end Steps

end TensorWasm.Executor
