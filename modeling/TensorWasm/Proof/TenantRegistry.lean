import TensorWasm.Tenant.Registry

/-!
# What the tenant registry keeps track of

A context that is alive is the registered one of its tenant or, if there is none, the one its tombstone
points to (`Coherent.tracked`). For each access to the registry there is a lemma that says when it keeps
this, and one that says which entries it leaves undisturbed.
-/

namespace TensorWasm.Tenants

open Lib
open AList (lookup_erase lookup_erase_ne lookup_insert_ne)

namespace TenantRegistry

variable {r r' : TenantRegistry} {id : TenantId} {ref : ContextRef}

/-- The context was registered under the id, now or before. -/
def Registered (r : TenantRegistry) (id : TenantId) (ref : ContextRef) : Prop :=
  ∃ ctx, r.contexts[ref]? = some ctx ∧ ctx.tenantId = id

/-- There is a strong reference to the context. -/
def Alive (r : TenantRegistry) (ref : ContextRef) : Prop := 0 < r.strongCount ref

theorem alive_iff : r.Alive ref ↔ 0 < r.handles ref ∨ ∃ id, r.inner.lookup id = some ref := by
  unfold Alive strongCount
  rw [Nat.add_pos_iff_pos_or_pos, List.countP_pos_iff]
  refine or_congr_right ⟨?_, ?_⟩
  · rintro ⟨⟨id, ref'⟩, hmem, href⟩
    obtain rfl : ref' = ref := of_decide_eq_true href
    exact ⟨id, AList.mem_lookup_iff.mpr hmem⟩
  · rintro ⟨id, hlookup⟩
    exact ⟨⟨id, ref⟩, AList.mem_lookup_iff.mp hlookup, decide_eq_true rfl⟩

theorem alive_of_lookup (h : r.inner.lookup id = some ref) : r.Alive ref := alive_iff.mpr (.inr ⟨id, h⟩)

structure Coherent (r : TenantRegistry) : Prop where
  inner : ∀ id ref, r.inner.lookup id = some ref → r.Registered id ref
  tombstones : ∀ id ref, r.tombstones.lookup id = some ref → r.Registered id ref
  handles : ∀ ref, 0 < r.handles ref → ref < r.contexts.length
  tracked : ∀ id ref, r.Registered id ref → r.Alive ref →
    r.inner.lookup id = some ref ∨ (r.inner.lookup id = none ∧ r.tombstones.lookup id = some ref)

theorem Registered.lt (h : r.Registered id ref) : ref < r.contexts.length := by
  obtain ⟨ctx, hctx, -⟩ := h
  exact (List.getElem?_eq_some_iff.mp hctx).1

variable {ref' : ContextRef}

/-- No two live contexts were registered under one id. -/
theorem Coherent.unique (h : r.Coherent) (hfirst : r.Registered id ref)
    (hsecond : r.Registered id ref') (halive : r.Alive ref) (halive' : r.Alive ref') : ref = ref' := by
  rcases h.tracked id ref hfirst halive with hin | ⟨hnone, htomb⟩
  · rcases h.tracked id ref' hsecond halive' with hin' | ⟨hnone', -⟩
    · exact Option.mem_unique hin hin'
    · exact nomatch hin.symm.trans hnone'
  · rcases h.tracked id ref' hsecond halive' with hin' | ⟨-, htomb'⟩
    · exact nomatch hnone.symm.trans hin'
    · exact Option.mem_unique htomb htomb'

/-! ## What an access leaves alone -/

/-- What holds of an id in `r` still holds in `r'`: its entry, which contexts it has had, that the dead
are dead, and the tombstones of the living. -/
structure Undisturbed (id : TenantId) (r r' : TenantRegistry) : Prop where
  inner : r'.inner.lookup id = r.inner.lookup id
  registered : ∀ ref, r'.Registered id ref → r.Registered id ref
  alive : ∀ ref, r.Registered id ref → r'.Alive ref → r.Alive ref
  tombstone : ∀ ref, r.Alive ref → r.tombstones.lookup id = some ref → r'.tombstones.lookup id = some ref

theorem Undisturbed.refl (id : TenantId) (r : TenantRegistry) : Undisturbed id r r :=
  ⟨rfl, fun _ h => h, fun _ _ h => h, fun _ _ h => h⟩

/-! ## Tombstones -/

section Tombstones

/-- The registry with another map of tombstones. -/
def withTombstones (r : TenantRegistry) (tombstones : AList fun _ : TenantId => ContextRef) : TenantRegistry :=
  { r with tombstones := tombstones }

variable {tombstones : AList fun _ : TenantId => ContextRef}

/-- Tombstones may go if they point to the dead and come if they point to a context of their id. -/
theorem Coherent.withTombstones (h : r.Coherent)
    (hregistered : ∀ id ref, tombstones.lookup id = some ref → r.Registered id ref)
    (hlive : ∀ id ref, r.inner.lookup id = none → r.Alive ref → r.tombstones.lookup id = some ref →
      tombstones.lookup id = some ref) : (r.withTombstones tombstones).Coherent where
  inner := h.inner
  tombstones := hregistered
  handles := h.handles
  tracked id ref hreg halive := by
    rcases h.tracked id ref hreg halive with hin | ⟨hnone, htomb⟩
    · exact .inl hin
    · exact .inr ⟨hnone, hlive id ref hnone halive htomb⟩

theorem undisturbed_withTombstones
    (hlive : ∀ ref, r.Alive ref → r.tombstones.lookup id = some ref → tombstones.lookup id = some ref) :
    Undisturbed id r (r.withTombstones tombstones) :=
  ⟨rfl, fun _ h => h, fun _ _ h => h, hlive⟩

/-- The tombstone of an id, if it points to a dead context or is not there, may be erased. -/
def DeadAt (r : TenantRegistry) (id : TenantId) : Prop :=
  ∀ ref, r.tombstones.lookup id = some ref → ¬ r.Alive ref

/-- The map without what it has at the id. -/
structure Cleared (r : TenantRegistry) (id : TenantId)
    (tombstones : AList fun _ : TenantId => ContextRef) : Prop where
  here : tombstones.lookup id = none
  elsewhere : ∀ id' ≠ id, tombstones.lookup id' = r.tombstones.lookup id'

theorem cleared_erase (r : TenantRegistry) (id : TenantId) : r.Cleared id (r.tombstones.erase id) :=
  ⟨lookup_erase _ _, fun _ hne => lookup_erase_ne hne⟩

variable {id' : TenantId}

theorem Cleared.lookup_live (hcleared : r.Cleared id tombstones) (hdead : r.DeadAt id)
    (halive : r.Alive ref) (h : r.tombstones.lookup id' = some ref) : tombstones.lookup id' = some ref := by
  have hne : id' ≠ id := by
    rintro rfl
    exact hdead ref h halive
  rw [hcleared.elsewhere id' hne]
  exact h

theorem Cleared.lookup_before (hcleared : r.Cleared id tombstones)
    (h : tombstones.lookup id' = some ref) : r.tombstones.lookup id' = some ref := by
  have hne : id' ≠ id := by
    rintro rfl
    exact nomatch hcleared.here.symm.trans h
  rw [← hcleared.elsewhere id' hne]
  exact h

theorem Coherent.clear (h : r.Coherent) (hcleared : r.Cleared id tombstones) (hdead : r.DeadAt id) :
    (r.withTombstones tombstones).Coherent :=
  h.withTombstones (fun _ _ hlookup => h.tombstones _ _ (hcleared.lookup_before hlookup))
    fun _ _ _ halive hlookup => hcleared.lookup_live hdead halive hlookup

theorem Cleared.undisturbed (hcleared : r.Cleared id tombstones) (hdead : r.DeadAt id) (id' : TenantId) :
    Undisturbed id' r (r.withTombstones tombstones) :=
  undisturbed_withTombstones fun _ halive hlookup => hcleared.lookup_live hdead halive hlookup

/-- A visit of `retain` erases the tombstone of an id if its context is dead. -/
theorem visitTombstone_cases (r : TenantRegistry) (id : TenantId) :
    r.visitTombstone id = r ∨ (r.DeadAt id ∧ r.visitTombstone id = r.withTombstones (r.tombstones.erase id)) := by
  unfold visitTombstone
  cases hlookup : r.tombstones.lookup id with
  | none => exact .inl rfl
  | some ref =>
    simp only
    split
    · exact .inl rfl
    · next hdead =>
      refine .inr ⟨fun ref' hlookup' => ?_, rfl⟩
      obtain rfl := Option.mem_unique hlookup hlookup'
      exact hdead

/-- The orphan check fails on a living context and otherwise leaves no tombstone. -/
theorem clearTombstone_cases (r : TenantRegistry) (id : TenantId) :
    (∃ ref, r.tombstones.lookup id = some ref ∧ r.Alive ref ∧
        r.clearTombstone id = .error (.orphanStillAlive id)) ∨
      (r.DeadAt id ∧ ∃ tombstones, r.Cleared id tombstones ∧
        r.clearTombstone id = .ok (r.withTombstones tombstones)) := by
  unfold clearTombstone
  cases hlookup : r.tombstones.lookup id with
  | none =>
    exact .inr ⟨fun ref h => (nomatch hlookup.symm.trans h), r.tombstones, ⟨hlookup, fun _ _ => rfl⟩, rfl⟩
  | some ref =>
    simp only
    split
    · next halive => exact .inl ⟨ref, rfl, halive, rfl⟩
    · next hdead =>
      refine .inr ⟨fun ref' hlookup' => ?_, r.tombstones.erase id, cleared_erase r id, rfl⟩
      obtain rfl := Option.mem_unique hlookup hlookup'
      exact hdead

/-- An id that has an entry may get any tombstone that points to it. -/
theorem Coherent.bury (h : r.Coherent) (hin : r.inner.lookup id = some ref) : (r.bury id ref).Coherent := by
  refine h.withTombstones ?_ ?_
  · intro id' ref' hlookup
    by_cases hid : id' = id
    · subst hid
      rw [AList.lookup_insert] at hlookup
      cases hlookup
      exact h.inner id' _ hin
    · rw [lookup_insert_ne hid] at hlookup
      exact h.tombstones id' ref' hlookup
  · intro id' ref' hnone _ hlookup
    have hid : id' ≠ id := by
      rintro rfl
      exact nomatch hin.symm.trans hnone
    rw [lookup_insert_ne hid]
    exact hlookup

theorem undisturbed_bury (hid : id' ≠ id) : Undisturbed id' r (r.bury id ref) := by
  refine undisturbed_withTombstones fun ref' _ hlookup => ?_
  rw [lookup_insert_ne hid]
  exact hlookup

end Tombstones

/-! ## Handles -/

section Handles

/-- The registry with other handles. -/
def withHandles (r : TenantRegistry) (handles : ContextRef → Nat) : TenantRegistry :=
  { r with handles := handles }

variable {handles : ContextRef → Nat}

theorem alive_withHandles (hhandles : ∀ ref, 0 < handles ref → r.Alive ref)
    (h : (r.withHandles handles).Alive ref) : r.Alive ref := by
  rcases alive_iff.mp h with hpos | hin
  · exact hhandles ref hpos
  · exact alive_iff.mpr (.inr hin)

theorem Coherent.lt_of_alive (h : r.Coherent) (halive : r.Alive ref) : ref < r.contexts.length := by
  rcases alive_iff.mp halive with hpos | ⟨id, hin⟩
  · exact h.handles ref hpos
  · exact (h.inner id ref hin).lt

/-- Handles to the living may come and go. -/
theorem Coherent.withHandles (h : r.Coherent) (hhandles : ∀ ref, 0 < handles ref → r.Alive ref) :
    (r.withHandles handles).Coherent where
  inner := h.inner
  tombstones := h.tombstones
  handles ref hpos := h.lt_of_alive (hhandles ref hpos)
  tracked id ref hreg halive := h.tracked id ref hreg (alive_withHandles hhandles halive)

theorem undisturbed_withHandles (hhandles : ∀ ref, 0 < handles ref → r.Alive ref) (id : TenantId) :
    Undisturbed id r (r.withHandles handles) :=
  ⟨rfl, fun _ h => h, fun _ _ h => alive_withHandles hhandles h, fun _ _ h => h⟩

/-- A handle is cloned from one that is alive. -/
theorem alive_of_update (halive : r.Alive ref) (n : Nat)
    (hpos : 0 < Function.update r.handles ref n ref') : r.Alive ref' := by
  by_cases hsame : ref' = ref
  · subst hsame
    exact halive
  · rw [Function.update_of_ne hsame] at hpos
    exact alive_iff.mpr (.inl hpos)

theorem alive_of_drop (hpos : 0 < Function.update r.handles ref (r.handles ref - 1) ref') : r.Alive ref' := by
  refine alive_iff.mpr (.inl ?_)
  by_cases hsame : ref' = ref
  · subst hsame
    rw [Function.update_self] at hpos
    omega
  · rw [Function.update_of_ne hsame] at hpos
    exact hpos

end Handles

/-! ## Entries -/

section Entries

variable {ctx : TenantContext}

theorem lookup_insertContext (r : TenantRegistry) (ctx : TenantContext) :
    (r.insertContext ctx).2.inner.lookup ctx.tenantId = some r.contexts.length := AList.lookup_insert _

variable {id' : TenantId}

theorem lookup_insertContext_ne (hid : id' ≠ ctx.tenantId) :
    (r.insertContext ctx).2.inner.lookup id' = r.inner.lookup id' := lookup_insert_ne hid

variable {ref' : ContextRef}

theorem handles_insertContext_ne (hne : ref' ≠ r.contexts.length) :
    (r.insertContext ctx).2.handles ref' = r.handles ref' := Function.update_of_ne hne _ _

theorem getElem?_insertContext :
    (r.insertContext ctx).2.contexts[ref']? =
      if ref' < r.contexts.length then r.contexts[ref']?
      else if ref' = r.contexts.length then some (r.stamp ctx) else none := by
  change (r.contexts ++ [r.stamp ctx])[ref']? = _
  split
  · next hlt => exact List.getElem?_append_left hlt
  · next hge =>
    rw [List.getElem?_append_right (Nat.le_of_not_lt hge)]
    split
    · next heq => rw [heq, Nat.sub_self]; rfl
    · next hne =>
      have hgt := Nat.lt_of_le_of_ne (Nat.le_of_not_lt hge) (Ne.symm hne)
      exact List.getElem?_eq_none (Nat.sub_pos_of_lt hgt)

theorem registered_insertContext :
    (r.insertContext ctx).2.Registered id' ref' ↔
      r.Registered id' ref' ∨ (ref' = r.contexts.length ∧ id' = ctx.tenantId) := by
  unfold Registered
  simp only [getElem?_insertContext]
  constructor
  · rintro ⟨found, hfound, rfl⟩
    split at hfound
    · exact .inl ⟨found, hfound, rfl⟩
    split at hfound
    · next hnew =>
      cases hfound
      exact .inr ⟨hnew, rfl⟩
    · cases hfound
  · rintro (⟨found, hfound, rfl⟩ | ⟨rfl, rfl⟩)
    · exact ⟨found, by rw [if_pos (List.getElem?_eq_some_iff.mp hfound).1]; exact hfound, rfl⟩
    · exact ⟨r.stamp ctx, by rw [if_neg (Nat.lt_irrefl _), if_pos rfl], rfl⟩

theorem alive_insertContext (hne : ref' ≠ r.contexts.length)
    (h : (r.insertContext ctx).2.Alive ref') : r.Alive ref' := by
  rcases alive_iff.mp h with hpos | ⟨id', hin⟩
  · rw [handles_insertContext_ne hne] at hpos
    exact alive_iff.mpr (.inl hpos)
  · refine alive_iff.mpr (.inr ⟨id', ?_⟩)
    have hid : id' ≠ ctx.tenantId := by
      rintro rfl
      rw [lookup_insertContext] at hin
      exact hne (Option.some.inj hin).symm
    rw [lookup_insertContext_ne hid] at hin
    exact hin

/-- A context goes in when all earlier ones of its id are dead. -/
theorem Coherent.insertContext (h : r.Coherent)
    (hdead : ∀ ref, r.Registered ctx.tenantId ref → ¬ r.Alive ref) : (r.insertContext ctx).2.Coherent where
  inner id ref hin := by
    refine registered_insertContext.mpr ?_
    by_cases hid : id = ctx.tenantId
    · subst hid
      rw [lookup_insertContext] at hin
      exact .inr ⟨(Option.some.inj hin).symm, rfl⟩
    · rw [lookup_insertContext_ne hid] at hin
      exact .inl (h.inner id ref hin)
  tombstones id ref htomb := registered_insertContext.mpr (.inl (h.tombstones id ref htomb))
  handles ref hpos := by
    change ref < (r.contexts ++ [r.stamp ctx]).length
    rw [List.length_append, List.length_singleton]
    by_cases hnew : ref = r.contexts.length
    · exact Nat.lt_succ_of_le hnew.le
    · rw [handles_insertContext_ne hnew] at hpos
      exact Nat.lt_succ_of_lt (h.handles ref hpos)
  tracked id ref hreg halive := by
    rcases registered_insertContext.mp hreg with hold | ⟨rfl, rfl⟩
    · have hbefore : r.Alive ref := alive_insertContext hold.lt.ne halive
      have hid : id ≠ ctx.tenantId := by
        rintro rfl
        exact hdead ref hold hbefore
      rw [lookup_insertContext_ne hid]
      exact h.tracked id ref hold hbefore
    · exact .inl (lookup_insertContext r ctx)

theorem undisturbed_insertContext (hid : id' ≠ ctx.tenantId) : Undisturbed id' r (r.insertContext ctx).2 where
  inner := lookup_insertContext_ne hid
  registered ref hreg := by
    rcases registered_insertContext.mp hreg with hold | ⟨-, heq⟩
    · exact hold
    · exact absurd heq hid
  alive ref hreg halive := alive_insertContext hreg.lt.ne halive
  tombstone _ _ hlookup := hlookup

theorem alive_removeEntry (hin : r.inner.lookup id = some ref)
    (h : (r.removeEntry id ref).Alive ref') : r.Alive ref' := by
  rcases alive_iff.mp h with hpos | ⟨id', hin'⟩
  · exact alive_of_update (alive_of_lookup hin) _ hpos
  · refine alive_iff.mpr (.inr ⟨id', ?_⟩)
    have hid : id' ≠ id := by
      rintro rfl
      rw [removeEntry, lookup_erase] at hin'
      cases hin'
    rw [removeEntry, lookup_erase_ne hid] at hin'
    exact hin'

/-- An entry goes out when its tombstone is in place. -/
theorem Coherent.removeEntry (h : r.Coherent) (hin : r.inner.lookup id = some ref)
    (htomb : r.tombstones.lookup id = some ref) : (r.removeEntry id ref).Coherent where
  inner id' ref' hin' := by
    have hid : id' ≠ id := by
      rintro rfl
      rw [TenantRegistry.removeEntry, lookup_erase] at hin'
      cases hin'
    rw [TenantRegistry.removeEntry, lookup_erase_ne hid] at hin'
    exact h.inner id' ref' hin'
  tombstones := h.tombstones
  handles ref' hpos := h.lt_of_alive (alive_of_update (alive_of_lookup hin) _ hpos)
  tracked id' ref' hreg halive := by
    have hbefore := alive_removeEntry hin halive
    by_cases hid : id' = id
    · subst hid
      rcases h.tracked id' ref' hreg hbefore with hin' | ⟨hnone, -⟩
      · obtain rfl := Option.mem_unique hin hin'
        exact .inr ⟨lookup_erase _ _, htomb⟩
      · exact nomatch hin.symm.trans hnone
    · rw [TenantRegistry.removeEntry, lookup_erase_ne hid]
      exact h.tracked id' ref' hreg hbefore

theorem undisturbed_removeEntry (hin : r.inner.lookup id = some ref) (hid : id' ≠ id) :
    Undisturbed id' r (r.removeEntry id ref) :=
  ⟨lookup_erase_ne hid, fun _ h => h, fun _ _ h => alive_removeEntry hin h, fun _ _ h => h⟩

end Entries

end TenantRegistry

end TensorWasm.Tenants
