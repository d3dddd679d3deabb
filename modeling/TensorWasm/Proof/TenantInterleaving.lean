import TensorWasm.Proof.TenantRegistry

/-!
# One live context for each tenant

The registry stays coherent under every interleaving of the accesses of all operations, because the guard
of an entry keeps the other operations on the same id away. So an id can be registered only when nothing
of it is left, and since a tombstone that is removed points to a dead context, removing it makes no
difference.
-/

namespace TensorWasm.Tenants

open Lib
open Site (start)

/-! ## Tasks -/

open TenantRegistry

variable {r r' : TenantRegistry} {id : TenantId} {ref : ContextRef} {task : Task} {guarded : TenantId → Bool}

/-- What a task has found out about its entry and relies on. -/
def Task.Ok (r : TenantRegistry) : Task → Prop
  | .checking ctx => r.inner.lookup ctx.tenantId = none
  | .inserting ctx => r.inner.lookup ctx.tenantId = none ∧ ∀ ref, r.Registered ctx.tenantId ref → ¬ r.Alive ref
  | .burying id ref => r.inner.lookup id = some ref
  | .removing id ref => r.inner.lookup id = some ref ∧ r.tombstones.lookup id = some ref
  | _ => True

/-- A task relies on its own entry only. -/
theorem Task.Ok.of_undisturbed (h : task.Ok r) (hother : ∀ id, task.guard = some id → Undisturbed id r r') :
    task.Ok r' := by
  cases task with
  | checking ctx =>
    have hid := hother ctx.tenantId rfl
    exact hid.inner.trans h
  | inserting ctx =>
    have hid := hother ctx.tenantId rfl
    refine ⟨hid.inner.trans h.1, fun ref hreg halive => ?_⟩
    have hbefore := hid.registered ref hreg
    exact h.2 ref hbefore (hid.alive ref hbefore halive)
  | burying id ref => exact (hother id rfl).inner.trans h
  | removing id ref =>
    have hid := hother id rfl
    exact ⟨hid.inner.trans h.1, hid.tombstone ref (alive_of_lookup h.1) h.2⟩
  | registering _ | registered _ | unregistering _ | unregistered _ => trivial

/-- One access of a task: the registry stays coherent, the task knows what it needs for the next one, no
other entry is disturbed, and a guard is taken only if it is free. -/
structure Advances (guarded : TenantId → Bool) (r : TenantRegistry) (task : Task) (r' : TenantRegistry)
    (task' : Task) : Prop where
  coherent : r'.Coherent
  ok : task'.Ok r'
  undisturbed : ∀ id, task.guard ≠ some id → Undisturbed id r r'
  guard : ∀ id, task'.guard = some id → task.guard = some id ∨ guarded id = false

theorem ne_of_guard_ne {id' : TenantId} (hguard : some id ≠ some id') : id' ≠ id :=
  fun h => hguard (congrArg some h.symm)

theorem advance_checking (h : r.Coherent) {ctx : TenantContext} (hnone : r.inner.lookup ctx.tenantId = none) :
    Advances guarded r (.checking ctx) ((Task.checking ctx).advance guarded r).1
      ((Task.checking ctx).advance guarded r).2 := by
  simp only [Task.advance]
  rcases clearTombstone_cases r ctx.tenantId with ⟨ref, -, -, herror⟩ | ⟨hdead, tombstones, hcleared, hok⟩
  · simp only [herror]
    exact ⟨h, trivial, fun id _ => .refl id r, fun _ hnothing => (nomatch hnothing)⟩
  · simp only [hok]
    refine ⟨h.clear hcleared hdead, ⟨hnone, ?_⟩, fun id _ => hcleared.undisturbed hdead id, ?_⟩
    · -- a living context of the id would have had its tombstone there
      intro ref hreg halive
      rcases h.tracked ctx.tenantId ref hreg halive with hin | ⟨-, htomb⟩
      · exact nomatch hnone.symm.trans hin
      · exact hdead ref htomb halive
    · intro id hguard
      exact .inl hguard

theorem advance_inserting (h : r.Coherent) {ctx : TenantContext}
    (hdead : ∀ ref, r.Registered ctx.tenantId ref → ¬ r.Alive ref) :
    Advances guarded r (.inserting ctx) ((Task.inserting ctx).advance guarded r).1
      ((Task.inserting ctx).advance guarded r).2 :=
  ⟨h.insertContext hdead, trivial, fun _ hguard => undisturbed_insertContext (ne_of_guard_ne hguard),
    fun _ hnothing => nomatch hnothing⟩

variable {task' : Task}

theorem advance_unguarded (h : r.Coherent) (hok : task'.Ok r)
    (hguard : ∀ id, task'.guard = some id → guarded id = false) : Advances guarded r task r task' :=
  ⟨h, hok, fun id _ => .refl id r, fun id hid => .inr (hguard id hid)⟩

theorem advance_ok (guarded : TenantId → Bool) (h : r.Coherent) (hok : task.Ok r) :
    Advances guarded r task (task.advance guarded r).1 (task.advance guarded r).2 := by
  cases task with
  | registering ctx =>
    simp only [Task.advance]
    split
    · exact advance_unguarded h trivial fun _ hnothing => nomatch hnothing
    next hfree =>
    split
    · exact advance_unguarded h trivial fun _ hnothing => nomatch hnothing
    next hvacant =>
    refine advance_unguarded h (AList.lookup_eq_none.mpr hvacant) fun id hid => ?_
    cases hid
    exact Bool.eq_false_iff.mpr hfree
  | checking ctx => exact advance_checking h hok
  | inserting ctx => exact advance_inserting h hok.2
  | unregistering id =>
    simp only [Task.advance]
    split
    · exact advance_unguarded h trivial fun _ hnothing => nomatch hnothing
    next hfree =>
    cases hlookup : r.inner.lookup id with
    | none => exact advance_unguarded h trivial fun _ hnothing => nomatch hnothing
    | some ref =>
      refine advance_unguarded h hlookup fun id' hid => ?_
      cases hid
      exact Bool.eq_false_iff.mpr hfree
  | burying id ref =>
    refine ⟨h.bury hok, ⟨hok, AList.lookup_insert _⟩, ?_, fun _ hguard => .inl hguard⟩
    intro id' hguard
    exact undisturbed_bury (ne_of_guard_ne hguard)
  | removing id ref =>
    refine ⟨h.removeEntry hok.1 hok.2, trivial, ?_, fun _ hnothing => (nomatch hnothing)⟩
    intro id' hguard
    exact undisturbed_removeEntry hok.1 (ne_of_guard_ne hguard)
  | registered result
  | unregistered result => exact advance_unguarded h trivial fun _ hnothing => nomatch hnothing

/-! ## Whole runs -/

namespace Site

variable {s t : Site}

structure Ok (s : Site) : Prop where
  coherent : s.registry.Coherent
  tasks : ∀ (i : Nat) (task : Task), s.tasks[i]? = some task → task.Ok s.registry
  exclusive : ∀ (i j : Nat) (task task' : Task) (id : TenantId),
    s.tasks[i]? = some task → s.tasks[j]? = some task' → i ≠ j →
    task.guard = some id → task'.guard ≠ some id

variable {i : Nat}

theorem guarded_of_guard {task : Task} {id : TenantId} (htask : s.tasks[i]? = some task)
    (hguard : task.guard = some id) : s.guarded id = true :=
  List.any_eq_true.mpr ⟨task, List.mem_of_getElem? htask, decide_eq_true hguard⟩

/-- What comes from outside leaves every entry undisturbed. -/
theorem Ok.withRegistry (h : s.Ok) {r' : TenantRegistry} (hcoherent : r'.Coherent)
    (hother : ∀ id, Undisturbed id s.registry r') : Ok { s with registry := r' } :=
  ⟨hcoherent, fun i task htask => (h.tasks i task htask).of_undisturbed fun id _ => hother id, h.exclusive⟩

/-- A new task holds no guard. -/
theorem Ok.push (h : s.Ok) {task : Task} (hok : task.Ok s.registry) (hguard : task.guard = none) :
    Ok { s with tasks := s.tasks ++ [task] } := by
  have hcases : ∀ (i : Nat) (found : Task), (s.tasks ++ [task])[i]? = some found →
      s.tasks[i]? = some found ∨ (i = s.tasks.length ∧ found = task) := by
    intro i found hfound
    rcases Nat.lt_trichotomy i s.tasks.length with hlt | rfl | hgt
    · rw [List.getElem?_append_left hlt] at hfound
      exact .inl hfound
    · rw [List.getElem?_append_right le_rfl, Nat.sub_self] at hfound
      exact .inr ⟨rfl, (Option.some.inj hfound).symm⟩
    · rw [List.getElem?_append_right hgt.le, List.getElem?_eq_none (Nat.sub_pos_of_lt hgt)] at hfound
      cases hfound
  refine ⟨h.coherent, ?_, ?_⟩
  · intro i found hfound
    rcases hcases i found hfound with hold | ⟨-, rfl⟩
    · exact h.tasks i found hold
    · exact hok
  · intro i j first second id hfirst hsecond hne hheld hheld'
    rcases hcases i first hfirst with hold | ⟨-, rfl⟩
    · rcases hcases j second hsecond with hold' | ⟨-, rfl⟩
      · exact h.exclusive i j first second id hold hold' hne hheld hheld'
      · exact nomatch hguard.symm.trans hheld'
    · exact nomatch hguard.symm.trans hheld

/-- The task that takes a step relies on what it has found, the others on their own entries. -/
theorem Ok.stepTask (h : s.Ok) {task : Task} (htask : s.tasks[i]? = some task) :
    Ok ⟨(task.advance s.guarded s.registry).1, s.tasks.set i (task.advance s.guarded s.registry).2⟩ := by
  have hadvance := advance_ok s.guarded h.coherent (h.tasks i task htask)
  have hlt : i < s.tasks.length := (List.getElem?_eq_some_iff.mp htask).1
  refine ⟨hadvance.coherent, ?_, ?_⟩
  · intro j found hfound
    rw [List.getElem?_set] at hfound
    split at hfound
    · cases hfound
      exact hadvance.ok
    · next hne =>
      refine (h.tasks j found hfound).of_undisturbed fun id hguard => hadvance.undisturbed id ?_
      intro hheld
      exact h.exclusive i j task found id htask hfound hne hheld hguard
  · intro j k first second id hfirst hsecond hne hheld hheld'
    rw [List.getElem?_set] at hfirst hsecond
    split at hfirst
    · next hj =>
      subst hj
      rw [if_neg hne] at hsecond
      cases hfirst
      rcases hadvance.guard id hheld with hbefore | hfree
      · exact h.exclusive i k task second id htask hsecond hne hbefore hheld'
      · exact Bool.eq_false_iff.mp hfree (guarded_of_guard hsecond hheld')
    · split at hsecond
      · next hk =>
        subst hk
        cases hsecond
        rcases hadvance.guard id hheld' with hbefore | hfree
        · exact h.exclusive i j task first id htask hfirst (Ne.symm hne) hbefore hheld
        · exact Bool.eq_false_iff.mp hfree (guarded_of_guard hfirst hheld)
      · exact h.exclusive j k first second id hfirst hsecond hne hheld hheld'

theorem Ok.cloneHandle (h : s.Ok) {ref : ContextRef} (halive : s.registry.Alive ref) :
    Ok { s with registry := s.registry.cloneHandle ref } :=
  h.withRegistry (h.coherent.withHandles fun _ => alive_of_update halive _)
    fun id => undisturbed_withHandles (fun _ => alive_of_update halive _) id

theorem Ok.visit (h : s.Ok) (id : TenantId) : Ok { s with registry := s.registry.visitTombstone id } := by
  rcases visitTombstone_cases s.registry id with hsame | ⟨hdead, herase⟩
  · rw [hsame]
    exact h
  · rw [herase]
    exact h.withRegistry (h.coherent.clear (cleared_erase _ id) hdead)
      ((cleared_erase s.registry id).undisturbed hdead)

theorem Ok.step (h : s.Ok) (a : Action) : (s.step a).Ok := by
  cases a with
  | register ctx | unregister id => exact h.push trivial rfl
  | step i =>
    cases htask : s.tasks[i]? with
    | none =>
      simp only [Site.step, htask]
      exact h
    | some task =>
      simp only [Site.step, htask]
      exact h.stepTask htask
  | get id =>
    simp only [Site.step]
    split
    · exact h
    · split
      · exact h
      · next ref hlookup => exact h.cloneHandle (alive_of_lookup hlookup)
  | clone ref =>
    simp only [Site.step]
    split
    · next hpos => exact h.cloneHandle (alive_iff.mpr (.inl hpos))
    · exact h
  | drop ref =>
    exact h.withRegistry (h.coherent.withHandles fun _ => alive_of_drop)
      fun id => undisturbed_withHandles (fun _ => alive_of_drop) id
  | visit id => exact h.visit id

theorem start_ok (registryToken : RegistryToken) : (start registryToken).Ok where
  coherent :=
    { inner := fun _ _ h => nomatch h
      tombstones := fun _ _ h => nomatch h
      handles := fun _ h => absurd h (Nat.lt_irrefl 0)
      tracked := fun _ _ h => absurd h.lt (Nat.not_lt_zero _) }
  tasks := fun _ _ h => nomatch h
  exclusive := fun _ _ _ _ _ h => nomatch h

theorem run_ok (registryToken : RegistryToken) (actions : List Action) :
    (run step (start registryToken) actions).Ok :=
  run_keeps (fun _ a h => h.step a) (start_ok registryToken) actions

/-- Where a task comes from: it was there, it is new, or it has taken the step. -/
theorem getElem?_step {a : Action} (h : (s.step a).tasks[i]? = some task') :
    s.tasks[i]? = some task' ∨ (∃ ctx, task' = .registering ctx) ∨ (∃ id, task' = .unregistering id) ∨
      ∃ task, s.tasks[i]? = some task ∧ task' = (task.advance s.guarded s.registry).2 := by
  cases a with
  | register ctx =>
    rcases getElem?_concat h with hold | ⟨-, hnew⟩
    · exact .inl hold
    · exact .inr (.inl ⟨ctx, hnew⟩)
  | unregister id =>
    rcases getElem?_concat h with hold | ⟨-, hnew⟩
    · exact .inl hold
    · exact .inr (.inr (.inl ⟨id, hnew⟩))
  | step j =>
    cases htask : s.tasks[j]? with
    | none =>
      simp only [Site.step, htask] at h
      exact .inl h
    | some task =>
      simp only [Site.step, htask, List.getElem?_set] at h
      split at h
      · next hj =>
        subst hj
        split at h
        · exact .inr (.inr (.inr ⟨task, htask, (Option.some.inj h).symm⟩))
        · cases h
      · exact .inl h
  | get id =>
    simp only [Site.step] at h
    split at h
    · exact .inl h
    · split at h
      · exact .inl h
      · exact .inl h
  | clone ref =>
    simp only [Site.step] at h
    split at h
    · exact .inl h
    · exact .inl h
  | drop ref | visit id => exact .inl h

/-- A registration that succeeds has found its entry vacant and all earlier contexts of the id dead. -/
theorem Ok.fresh_of_success (h : s.Ok) {a : Action} {ref : ContextRef} {cap : TenantCapability}
    (hafter : (s.step a).tasks[i]? = some (.registered (.ok (ref, cap))))
    (hbefore : s.tasks[i]? ≠ some (.registered (.ok (ref, cap)))) {old : ContextRef}
    (hold : s.registry.Registered cap.tenantId old) : ¬ s.registry.Alive old := by
  rcases getElem?_step hafter with hsame | ⟨_, hnew⟩ | ⟨_, hnew⟩ | ⟨task, htask, hadvance⟩
  · exact absurd hsame hbefore
  · cases hnew
  · cases hnew
  · have hok := h.tasks i task htask
    cases task with
    | inserting ctx =>
      obtain ⟨-, rfl⟩ := Prod.mk.inj (Except.ok.inj (Task.registered.inj hadvance))
      exact hok.2 old hold
    | registering ctx =>
      simp only [Task.advance] at hadvance
      split at hadvance
      · cases hadvance
      · split at hadvance
        · cases hadvance
        · cases hadvance
    | checking ctx =>
      simp only [Task.advance] at hadvance
      split at hadvance
      · cases hadvance
      · cases hadvance
    | unregistering id =>
      simp only [Task.advance] at hadvance
      split at hadvance
      · cases hadvance
      · split at hadvance
        · cases hadvance
        · cases hadvance
    | burying _ _ | removing _ _ | unregistered _ => exact nomatch hadvance
    | registered result =>
      rw [Task.registered.inj hadvance] at hbefore
      exact absurd htask hbefore

/-! ## Visits make no difference -/

end Site

namespace TenantRegistry

variable {r : TenantRegistry} {tombstones : AList fun _ : TenantId => ContextRef}

/-- Another map of tombstones that has the same for the living. -/
def Agrees (r : TenantRegistry) (tombstones : AList fun _ : TenantId => ContextRef) : Prop :=
  ∀ id ref, r.Alive ref → (r.tombstones.lookup id = some ref ↔ tombstones.lookup id = some ref)

variable (h : r.Agrees tombstones)

include h

theorem Agrees.visit (id : TenantId) :
    ∃ visited, r.visitTombstone id = r.withTombstones visited ∧ (r.withTombstones visited).Agrees tombstones := by
  rcases visitTombstone_cases r id with hsame | ⟨hdead, herase⟩
  · exact ⟨r.tombstones, hsame, h⟩
  · refine ⟨_, herase, fun id' ref halive => ?_⟩
    have hbefore := h id' ref halive
    constructor
    · intro hlookup
      exact hbefore.mp ((cleared_erase r id).lookup_before hlookup)
    · intro hlookup
      exact (cleared_erase r id).lookup_live hdead halive (hbefore.mpr hlookup)

/-- With both maps the orphan check gives the same answer. -/
theorem Agrees.clear (id : TenantId) :
    (∃ e, r.clearTombstone id = .error e ∧ (r.withTombstones tombstones).clearTombstone id = .error e) ∨
      ∃ left right, r.clearTombstone id = .ok (r.withTombstones left) ∧
        (r.withTombstones tombstones).clearTombstone id = .ok (r.withTombstones right) ∧
        (r.withTombstones left).Agrees right := by
  rcases clearTombstone_cases r id with ⟨ref, hlookup, halive, herror⟩ | ⟨hdead, left, hleft, hok⟩
  · rcases clearTombstone_cases (r.withTombstones tombstones) id with ⟨_, -, -, herror'⟩ | ⟨hdead', -⟩
    · exact .inl ⟨_, herror, herror'⟩
    · exact absurd halive (hdead' ref ((h id ref halive).mp hlookup))
  · rcases clearTombstone_cases (r.withTombstones tombstones) id with
      ⟨ref, hlookup, halive, -⟩ | ⟨hdead', right, hright, hok'⟩
    · exact absurd halive (hdead ref ((h id ref halive).mpr hlookup))
    · refine .inr ⟨left, right, hok, hok', fun id' ref halive => ?_⟩
      constructor
      · intro hlookup
        exact hright.lookup_live hdead' halive ((h id' ref halive).mp (hleft.lookup_before hlookup))
      · intro hlookup
        exact hleft.lookup_live hdead halive ((h id' ref halive).mpr (hright.lookup_before hlookup))

theorem Agrees.insertContext (hr : r.Coherent) (ht : (r.withTombstones tombstones).Coherent)
    (ctx : TenantContext) : (r.insertContext ctx).2.Agrees tombstones := by
  intro id ref halive
  by_cases hnew : ref = r.contexts.length
  · -- no tombstone points to a context that was not there before
    subst hnew
    constructor
    · intro hlookup
      exact absurd (hr.tombstones id _ hlookup).lt (Nat.lt_irrefl _)
    · intro hlookup
      exact absurd (ht.tombstones id _ hlookup).lt (Nat.lt_irrefl _)
  · exact h id ref (alive_insertContext hnew halive)

theorem Agrees.bury (id : TenantId) (ref : ContextRef) : (r.bury id ref).Agrees (tombstones.insert id ref) := by
  intro id' ref' halive
  by_cases hid : id' = id
  · subst hid
    rw [AList.lookup_insert, TenantRegistry.bury, AList.lookup_insert]
  · rw [AList.lookup_insert_ne hid, TenantRegistry.bury, AList.lookup_insert_ne hid]
    exact h id' ref' halive

theorem Agrees.withHandles {handles : ContextRef → Nat}
    (hhandles : ∀ ref, 0 < handles ref → r.Alive ref) : (r.withHandles handles).Agrees tombstones :=
  fun id ref halive => h id ref (alive_withHandles hhandles halive)

/-- A task goes the same way with both maps. -/
theorem Agrees.advance (hr : r.Coherent) (ht : (r.withTombstones tombstones).Coherent)
    {task : Task} (hok : task.Ok r) (guarded : TenantId → Bool) :
    ∃ after, task.advance guarded (r.withTombstones tombstones) =
        ((task.advance guarded r).1.withTombstones after, (task.advance guarded r).2) ∧
      (task.advance guarded r).1.Agrees after := by
  cases task with
  | registering ctx =>
    simp only [Task.advance]
    split
    · exact ⟨tombstones, rfl, h⟩
    next hfree =>
    by_cases hin : ctx.tenantId ∈ r.inner
    · have hin' : ctx.tenantId ∈ (r.withTombstones tombstones).inner := hin
      rw [if_pos hin, if_pos hin']
      exact ⟨tombstones, rfl, h⟩
    · have hin' : ctx.tenantId ∉ (r.withTombstones tombstones).inner := hin
      rw [if_neg hin, if_neg hin']
      exact ⟨tombstones, rfl, h⟩
  | checking ctx =>
    rcases h.clear ctx.tenantId with ⟨e, herror, herror'⟩ | ⟨left, right, hleft, hright, hagrees⟩
    · simp only [Task.advance, herror, herror']
      exact ⟨tombstones, rfl, h⟩
    · simp only [Task.advance, hleft, hright]
      exact ⟨right, rfl, hagrees⟩
  | inserting ctx => exact ⟨tombstones, rfl, h.insertContext hr ht ctx⟩
  | unregistering id =>
    have hsame : (r.withTombstones tombstones).inner.lookup id = r.inner.lookup id := rfl
    simp only [Task.advance, hsame]
    split
    · exact ⟨tombstones, rfl, h⟩
    · split
      · exact ⟨tombstones, rfl, h⟩
      · exact ⟨tombstones, rfl, h⟩
  | burying id ref => exact ⟨tombstones.insert id ref, rfl, h.bury id ref⟩
  | removing id ref => exact ⟨tombstones, rfl, fun id' ref' halive => h id' ref' (alive_removeEntry hok.1 halive)⟩
  | registered _ | unregistered _ => exact ⟨tombstones, rfl, h⟩

end TenantRegistry

namespace Site

variable {s t : Site}

/-- The same site but for tombstones of the dead. -/
def Same (s t : Site) : Prop :=
  ∃ tombstones, t = { s with registry := s.registry.withTombstones tombstones } ∧
    s.registry.Agrees tombstones

theorem Same.visit (h : Same s t) (id : TenantId) : Same (s.step (.visit id)) t := by
  obtain ⟨tombstones, rfl, hagrees⟩ := h
  obtain ⟨visited, hvisit, hafter⟩ := hagrees.visit id
  refine ⟨tombstones, ?_, ?_⟩
  · simp only [Site.step, hvisit]
    rfl
  · simp only [Site.step, hvisit]
    exact hafter

/-- The same action is answered in the same way. -/
theorem Same.step (h : Same s t) (hs : s.Ok) (ht : t.Ok) {a : Action} (ha : ∀ id, a ≠ .visit id) :
    Same (s.step a) (t.step a) := by
  obtain ⟨tombstones, rfl, hagrees⟩ := h
  cases a with
  | register ctx | unregister id => exact ⟨tombstones, rfl, hagrees⟩
  | step i =>
    cases htask : s.tasks[i]? with
    | none =>
      simp only [Site.step, htask]
      exact ⟨tombstones, rfl, hagrees⟩
    | some task =>
      have hguarded : guarded { s with registry := s.registry.withTombstones tombstones } = s.guarded := rfl
      obtain ⟨after, hadvance, hagrees'⟩ :=
        hagrees.advance hs.coherent ht.coherent (hs.tasks i task htask) s.guarded
      simp only [Site.step, htask, hguarded, hadvance]
      exact ⟨after, rfl, hagrees'⟩
  | get id =>
    have hguarded : guarded { s with registry := s.registry.withTombstones tombstones } id =
        s.guarded id := rfl
    have hsame : (s.registry.withTombstones tombstones).inner.lookup id = s.registry.inner.lookup id := rfl
    simp only [Site.step, hguarded, hsame]
    split
    · exact ⟨tombstones, rfl, hagrees⟩
    · split
      · exact ⟨tombstones, rfl, hagrees⟩
      · next ref hlookup =>
        exact ⟨tombstones, rfl, hagrees.withHandles fun _ => alive_of_update (alive_of_lookup hlookup) _⟩
  | clone ref =>
    have hsame : (s.registry.withTombstones tombstones).handles ref = s.registry.handles ref := rfl
    simp only [Site.step, hsame]
    split
    · next hpos =>
      exact ⟨tombstones, rfl, hagrees.withHandles fun _ => alive_of_update (alive_iff.mpr (.inl hpos)) _⟩
    · exact ⟨tombstones, rfl, hagrees⟩
  | drop ref => exact ⟨tombstones, rfl, hagrees.withHandles fun _ => alive_of_drop⟩
  | visit id => exact absurd rfl (ha id)

/-- A run and the same run without its visits are the same but for tombstones of the dead. -/
theorem Same.run (h : Same s t) (hs : s.Ok) (ht : t.Ok) (actions : List Action) :
    Same (Lib.run Site.step s actions) (Lib.run Site.step t (actions.filter (!·.isVisit))) := by
  induction actions generalizing s t with
  | nil => exact h
  | cons a actions ih =>
    cases hvisit : a.isVisit with
    | true =>
      rw [List.filter_cons_of_neg (by rw [hvisit]; decide)]
      cases a with
      | visit id => exact ih (h.visit id) (hs.step _) ht
      | register _ | unregister _ | step _ | get _ | clone _ | drop _ => exact nomatch hvisit
    | false =>
      rw [List.filter_cons_of_pos (by rw [hvisit]; decide)]
      refine ih (h.step hs ht fun id hid => ?_) (hs.step a) (ht.step a)
      rw [hid] at hvisit
      cases hvisit

/-! ## The operations as runs -/

theorem run_visits (s : Site) (ids : List TenantId) :
    Lib.run Site.step s (ids.map .visit) =
      { s with registry := ids.foldl TenantRegistry.visitTombstone s.registry } := by
  induction ids generalizing s with
  | nil => rfl
  | cons id ids ih =>
    rw [List.map_cons, run_cons, ih]
    rfl

variable (r : TenantRegistry)

theorem maybePrune_visits (skipId : TenantId) :
    ∃ ids : List TenantId, r.maybePruneDeadTombstonesExcept skipId = ids.foldl TenantRegistry.visitTombstone r := by
  unfold TenantRegistry.maybePruneDeadTombstonesExcept
  split
  · exact ⟨_, rfl⟩
  · exact ⟨[], rfl⟩

/-- A task that is alone finds no guard in its way. -/
theorem run_alone {r r' : TenantRegistry} {task : Task}
    (hadvance : task.advance (Site.guarded ⟨r, [task]⟩) r = (r', task')) (actions : List Action) :
    Lib.run Site.step ⟨r, [task]⟩ (.step 0 :: actions) = Lib.run Site.step ⟨r', [task']⟩ actions := by
  rw [run_cons]
  simp [Site.step, hadvance]

/-- Alone, the steps of a registration and then visits are what the function does. -/
theorem registerWithCapability_run (ctx : TenantContext) :
    ∃ ids : List TenantId, Lib.run Site.step ⟨r, []⟩
        (.register ctx :: .step 0 :: .step 0 :: .step 0 :: ids.map .visit) =
      ⟨(r.registerWithCapability ctx).2, [.registered (r.registerWithCapability ctx).1]⟩ := by
  have hfree : Site.guarded ⟨r, [.registering ctx]⟩ ctx.tenantId = false := rfl
  have hbegin : Site.step ⟨r, []⟩ (.register ctx) = ⟨r, [.registering ctx]⟩ := rfl
  unfold TenantRegistry.registerWithCapability
  by_cases hin : ctx.tenantId ∈ r.inner
  · have hfirst : (Task.registering ctx).advance (Site.guarded ⟨r, [.registering ctx]⟩) r =
        (r, .registered (.error (.alreadyRegistered ctx.tenantId))) := by
      simp [Task.advance, hfree, if_pos hin]
    refine ⟨[], ?_⟩
    rw [run_cons, hbegin, run_alone hfirst, run_alone rfl, run_alone rfl, List.map_nil, run_nil, if_pos hin]
  · have hfirst : (Task.registering ctx).advance (Site.guarded ⟨r, [.registering ctx]⟩) r =
        (r, .checking ctx) := by
      simp [Task.advance, hfree, if_neg hin]
    rcases clearTombstone_cases r ctx.tenantId with ⟨_, -, -, herror⟩ | ⟨-, tombstones, -, hok⟩
    · have hsecond : (Task.checking ctx).advance (Site.guarded ⟨r, [.checking ctx]⟩) r =
          (r, .registered (.error (.orphanStillAlive ctx.tenantId))) := by
        simp only [Task.advance, herror]
      refine ⟨[], ?_⟩
      rw [run_cons, hbegin, run_alone hfirst, run_alone hsecond, run_alone rfl, List.map_nil, run_nil,
        if_neg hin, herror]
    · have hsecond : (Task.checking ctx).advance (Site.guarded ⟨r, [.checking ctx]⟩) r =
          (r.withTombstones tombstones, .inserting ctx) := by
        simp only [Task.advance, hok]
      obtain ⟨ids, hids⟩ := maybePrune_visits
        ((r.withTombstones tombstones).insertContext ctx).2 ctx.tenantId
      refine ⟨ids, ?_⟩
      rw [run_cons, hbegin, run_alone hfirst, run_alone hsecond, run_alone rfl, run_visits, if_neg hin, hok]
      simp only [hids]
      rfl

/-- So do those of an unregistration. -/
theorem unregister_run (id : TenantId) :
    ∃ ids : List TenantId, Lib.run Site.step ⟨r, []⟩
        (.unregister id :: .step 0 :: .step 0 :: .step 0 :: ids.map .visit) =
      ⟨(r.unregister id ⟨r.registryToken⟩).2, [.unregistered (r.unregister id ⟨r.registryToken⟩).1]⟩ := by
  have hfree : Site.guarded ⟨r, [.unregistering id]⟩ id = false := rfl
  have hbegin : Site.step ⟨r, []⟩ (.unregister id) = ⟨r, [.unregistering id]⟩ := rfl
  have hcap : r.checkAdminCap ⟨r.registryToken⟩ = .ok () := if_pos rfl
  unfold TenantRegistry.unregister
  cases hlookup : r.inner.lookup id with
  | none =>
    have hfirst : (Task.unregistering id).advance (Site.guarded ⟨r, [.unregistering id]⟩) r =
        (r, .unregistered none) := by
      simp [Task.advance, hfree, hlookup]
    refine ⟨[], ?_⟩
    rw [run_cons, hbegin, run_alone hfirst, run_alone rfl, run_alone rfl, List.map_nil, run_nil, hcap]
  | some ref =>
    have hfirst : (Task.unregistering id).advance (Site.guarded ⟨r, [.unregistering id]⟩) r =
        (r, .burying id ref) := by
      simp [Task.advance, hfree, hlookup]
    obtain ⟨ids, hids⟩ := maybePrune_visits ((r.bury id ref).removeEntry id ref) id
    refine ⟨ids, ?_⟩
    rw [run_cons, hbegin, run_alone hfirst, run_alone rfl, run_alone rfl, run_visits, hcap]
    simp only [hids]

/-- A collection is visits only. -/
theorem collectTombstones_run (tasks : List Task) :
    Lib.run Site.step ⟨r, tasks⟩ (r.tombstones.keys.map .visit) =
      ⟨(r.collectTombstones ⟨r.registryToken⟩).2, tasks⟩ := by
  have hcap : r.checkAdminCap ⟨r.registryToken⟩ = .ok () := if_pos rfl
  rw [run_visits, TenantRegistry.collectTombstones, hcap]

end Site

/-- In every interleaving, of the contexts of one id at most one is alive. A registration succeeds only
where none of the earlier ones is registered or has a handle, and no operation ends otherwise for the
visits of prunes and collections. -/
theorem one_live_context (registryToken : RegistryToken) (actions : List Action) :
    (∀ id ref ref', (run Site.step (start registryToken) actions).registry.Registered id ref →
      (run Site.step (start registryToken) actions).registry.Registered id ref' →
      (run Site.step (start registryToken) actions).registry.Alive ref →
      (run Site.step (start registryToken) actions).registry.Alive ref' → ref = ref') ∧
    (∀ (a : Action) (i : Nat) (ref : ContextRef) (cap : TenantCapability),
      (run Site.step (start registryToken) (actions ++ [a])).tasks[i]? = some (.registered (.ok (ref, cap))) →
      (run Site.step (start registryToken) actions).tasks[i]? ≠ some (.registered (.ok (ref, cap))) →
      ∀ old, (run Site.step (start registryToken) actions).registry.Registered cap.tenantId old →
        (run Site.step (start registryToken) actions).registry.inner.lookup cap.tenantId ≠ some old ∧
        (run Site.step (start registryToken) actions).registry.handles old = 0) ∧
    (run Site.step (start registryToken) (actions.filter (!·.isVisit))).tasks =
      (run Site.step (start registryToken) actions).tasks := by
  have hok := Site.run_ok registryToken actions
  refine ⟨fun id ref ref' => hok.coherent.unique, ?_, ?_⟩
  · intro a i ref cap hafter hbefore old hold
    rw [run_append, run_cons, run_nil] at hafter
    have hdead := hok.fresh_of_success hafter hbefore hold
    refine ⟨fun hin => hdead (alive_of_lookup hin), Nat.eq_zero_of_not_pos fun hpos => ?_⟩
    exact hdead (alive_iff.mpr (.inl hpos))
  · have hsame : Site.Same (start registryToken) (start registryToken) :=
      ⟨_, rfl, fun _ _ _ => Iff.rfl⟩
    obtain ⟨tombstones, hrun, -⟩ := hsame.run (Site.start_ok registryToken) (Site.start_ok registryToken) actions
    rw [hrun]

/-- A tenant is registered and unregistered, its handles go, and it is about to be registered again. -/
def comingBack : List Action :=
  let ctx := TenantContext.build 7 1024 none
  [.register ctx, .step 0, .step 0, .step 0, .drop 0, .unregister 7, .step 1, .step 1, .step 1, .drop 0,
    .register ctx, .step 2, .step 2]

theorem one_live_context_comingBack :
    (run Site.step (start 0) comingBack).registry.inner.lookup 7 ≠ some 0 ∧
      (run Site.step (start 0) comingBack).registry.handles 0 = 0 ∧
      ∀ ref, (run Site.step (start 0) (comingBack ++ [.step 2])).registry.Registered 7 ref →
        (run Site.step (start 0) (comingBack ++ [.step 2])).registry.Alive ref → ref = 1 := by
  obtain ⟨-, hsuccess, -⟩ := one_live_context 0 comingBack
  obtain ⟨hunique, -, -⟩ := one_live_context 0 (comingBack ++ [.step 2])
  obtain ⟨hentry, hhandles⟩ := hsuccess (.step 2) 2 1 ⟨7, 0⟩ (by decide +kernel) (by decide +kernel) 0
    ⟨_, rfl, rfl⟩
  refine ⟨hentry, hhandles, fun ref hreg halive => ?_⟩
  exact hunique 7 ref 1 hreg ⟨_, rfl, rfl⟩ halive (alive_iff.mpr (.inl (by decide +kernel)))

/-- After every interleaving a tenant can be registered exactly when none of its contexts is alive: an id is not lost
once its last handle is gone. -/
theorem register_succeeds_iff (registryToken : RegistryToken) (actions : List Action) (ctx : TenantContext) :
    let r := (run Site.step (start registryToken) actions).registry
    (∃ registered, (r.registerWithCapability ctx).1 = .ok registered) ↔
      ∀ ref, r.Registered ctx.tenantId ref → ¬ r.Alive ref := by
  intro r
  have hcoherent : r.Coherent := (Site.run_ok registryToken actions).coherent
  unfold TenantRegistry.registerWithCapability
  by_cases hin : ctx.tenantId ∈ r.inner
  · obtain ⟨ref, href⟩ := Option.isSome_iff_exists.mp (AList.lookup_isSome.mpr hin)
    rw [if_pos hin]
    exact iff_of_false nofun fun hdead => hdead ref (hcoherent.inner _ _ href) (alive_of_lookup href)
  · rw [if_neg hin]
    rcases clearTombstone_cases r ctx.tenantId with ⟨ref, htomb, halive, herror⟩ | ⟨hdead, tombstones, -, hok⟩
    · rw [herror]
      exact iff_of_false nofun fun hdead => hdead ref (hcoherent.tombstones _ _ htomb) halive
    · rw [hok]
      refine iff_of_true ⟨_, rfl⟩ fun ref hregistered halive => ?_
      rcases hcoherent.tracked _ ref hregistered halive with hentry | ⟨-, htomb⟩
      · exact hin (AList.lookup_isSome.mp (hentry ▸ rfl))
      · exact hdead ref htomb halive

end TensorWasm.Tenants
