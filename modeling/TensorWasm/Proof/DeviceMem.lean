import TensorWasm.Lib.Run
import TensorWasm.Lib.Tally
import TensorWasm.WasiGpu.DeviceMem

/-!
# The device-memory budget over whole runs

The budget is the sum of what the live registries hold, for as long as none of them is dropped with entries
in it: an insert charges both counters or neither, a free credits both, and nobody credits the budget for a
registry that goes away. A handle is new as long as the 64-bit counter of its registry has not wrapped.
-/

namespace TensorWasm.WasiGpu

open Lib List
open DeviceMemRegistry (len)
open Process (step)

/-! ## What one call does -/

theorem DeviceMemBudget.countDown_countUp (budget : DeviceMemBudget) : budget.countUp.countDown = budget := by
  simp [countUp, countDown]

/-- What a granted reservation has done to the budget. -/
structure DeviceMemBudget.Charged (budget : DeviceMemBudget) (size : UInt64) (budget' : DeviceMemBudget) :
    Prop where
  bytes : budget'.totalBytes.toNat = budget.totalBytes.toNat + size.toNat
  allocs : budget'.totalAllocs.toNat = budget.totalAllocs.toNat + 1
  bytes_le : budget'.totalBytes ≤ maxProcessDeviceBytes
  allocs_le : budget'.totalAllocs.toNat ≤ maxProcessDeviceAllocs

theorem toNat_saturatingAdd_of_not_lt {a b cap : UInt64} (hcap : cap < 18446744073709551615)
    (h : ¬ cap < saturatingAdd a b) : (saturatingAdd a b).toNat = a.toNat + b.toNat :=
  toNat_saturatingAdd (UInt64.lt_of_le_of_lt (UInt64.not_lt.mp h) hcap)

theorem DeviceMemBudget.tryReserve_cases (budget : DeviceMemBudget) (size : UInt64) :
    budget.tryReserve size = (.error .quotaExceeded, budget) ∨
      ∃ budget', budget.tryReserve size = (.ok (), budget') ∧ budget.Charged size budget' := by
  unfold tryReserve
  split
  · exact .inl (by rw [countDown_countUp])
  next hallocs =>
    simp only
    split
    · exact .inl (by rw [countDown_countUp])
    next hbytes =>
      refine .inr ⟨_, rfl, toNat_saturatingAdd_of_not_lt (by decide) hbytes, ?_, UInt64.not_lt.mp hbytes, ?_⟩
      all_goals
        have hlt : budget.totalAllocs.toNat < 16384 := Nat.not_le.mp hallocs
        have hnext : (budget.totalAllocs + 1).toNat = budget.totalAllocs.toNat + 1 := by
          rw [UInt64.toNat_add, UInt64.toNat_one]
          omega
      · exact hnext
      · exact hnext.trans_le hlt

theorem saturatingSub_saturatingAdd {a b : UInt64} (cap : UInt64) (hcap : cap < 18446744073709551615)
    (h : ¬ cap < saturatingAdd a b) : saturatingSub (saturatingAdd a b) b = a := by
  apply UInt64.toNat_inj.mp
  rw [toNat_saturatingSub, toNat_saturatingAdd_of_not_lt hcap h, Nat.add_sub_cancel]

namespace DeviceMemRegistry

/-- What a successful insert has done to the registry. -/
structure Admits (r : DeviceMemRegistry) (entry : DeviceMemEntry) (r' : DeviceMemRegistry) : Prop where
  next : r'.nextHandle = r.nextHandle + 1
  entries : r'.entries = r.entries.insert r.nextHandle entry
  bytes : r'.totalDeviceBytes.toNat = r.totalDeviceBytes.toNat + entry.size.toNat

/-- An insert is refused and nothing has changed, or it charges the registry and the budget. -/
theorem insert_cases (r : DeviceMemRegistry) (budget : DeviceMemBudget) (entry : DeviceMemEntry) :
    r.insert budget entry = (.error .quotaExceeded, r, budget) ∨
      ∃ r' budget', r.insert budget entry = (.ok r.nextHandle, r', budget') ∧ r.Admits entry r' ∧
        budget.Charged entry.size budget' := by
  unfold insert
  split
  · exact .inl rfl
  simp only
  split
  · exact .inl rfl
  next hbytes =>
    rcases budget.tryReserve_cases entry.size with hno | ⟨budget', hyes, hcharged⟩
    · rw [hno]
      refine .inl ?_
      simp [saturatingSub_saturatingAdd maxTotalDeviceBytes (by decide) hbytes]
    · rw [hyes]
      exact .inr ⟨_, _, rfl, ⟨rfl, rfl, toNat_saturatingAdd_of_not_lt (by decide) hbytes⟩, hcharged⟩

theorem free_cases (r : DeviceMemRegistry) (budget : DeviceMemBudget) (handle : UInt64) (owner : InstanceId) :
    r.free budget handle owner = (.error .invalidHandle, r, budget) ∨
      ∃ entry, r.entries.lookup handle = some entry ∧ entry.owner = owner ∧
        r.free budget handle owner =
          (.ok entry,
            { r with
              entries := r.entries.erase handle
              totalDeviceBytes := saturatingSub r.totalDeviceBytes entry.size },
            budget.release entry.size) := by
  unfold free
  cases hlookup : r.entries.lookup handle with
  | none => exact .inl rfl
  | some entry =>
    simp only
    split
    · exact .inl rfl
    next howner => exact .inr ⟨entry, rfl, not_not.mp howner, rfl⟩

theorem lookup_ok {r : DeviceMemRegistry} {handle : UInt64} {owner : InstanceId} {found : DeviceMemHandle}
    (h : r.lookup handle owner = .ok found) :
    r.entries.lookup handle = some ⟨found.owner, found.size⟩ ∧ found.owner = owner := by
  unfold lookup at h
  cases hlookup : r.entries.lookup handle with
  | none => rw [hlookup] at h; exact nomatch h
  | some entry =>
    rw [hlookup] at h
    simp only at h
    split at h
    · cases h
    next howner =>
      cases h
      exact ⟨rfl, not_not.mp howner⟩

end DeviceMemRegistry

/-! ## The books of a process -/

/-- The bytes of a registry's live entries. -/
def DeviceMemRegistry.liveBytes (r : DeviceMemRegistry) : Nat := weight (·.size.toNat) r.entries

namespace Process

/-- The counters say what the live registries hold, and the budget keeps to its caps. -/
structure Accounted (p : Process) : Prop where
  bytes : p.budget.totalBytes.toNat = weight (·.liveBytes) p.registries
  allocs : p.budget.totalAllocs.toNat = weight (·.len) p.registries
  bytes_le : p.budget.totalBytes ≤ maxProcessDeviceBytes
  allocs_le : p.budget.totalAllocs.toNat ≤ maxProcessDeviceAllocs
  own : ∀ id r, p.registries.lookup id = some r → r.totalDeviceBytes.toNat = r.liveBytes

/-- Every live entry was allocated under its handle, and a counter that has not wrapped is above all the
handles it gave out. -/
structure Recorded (p : Process) : Prop where
  live_lt : ∀ id ∈ p.registries, id < p.created
  registry_lt : ∀ a ∈ p.allocations, a.registry < p.created
  entry : ∀ id r handle entry, p.registries.lookup id = some r → r.entries.lookup handle = some entry →
    ⟨id, handle, entry⟩ ∈ p.allocations
  below : ∀ id r, p.registries.lookup id = some r → r.nextHandle ≠ 0 →
    ∀ a ∈ p.allocations, a.registry = id → a.handle < r.nextHandle
  distinct : (p.allocations.map fun a => (a.registry, a.handle)).Nodup

/-- A registry is dropped only when it is empty, and no allocation is asked of one whose handle counter
has wrapped. -/
def Tidy (p : Process) : Op → Prop
  | .create => True
  | .insert id _ => ∀ r, p.registries.lookup id = some r → r.nextHandle ≠ 0
  | .free _ _ _ => True
  | .drop id => ∀ r, p.registries.lookup id = some r → r.len = 0

variable {p : Process} {id : Nat}

theorem fresh_of_recorded (h : p.Recorded) : p.created ∉ p.registries :=
  fun hmem => Nat.lt_irrefl _ (h.live_lt _ hmem)

variable {r r' : DeviceMemRegistry} {budget : DeviceMemBudget}

/-- A registry that changes by as much as the budget does leaves the books right. -/
theorem Accounted.update (h : p.Accounted) (hr : p.registries.lookup id = some r)
    (hbytes : budget.totalBytes.toNat + r.liveBytes = p.budget.totalBytes.toNat + r'.liveBytes)
    (hallocs : budget.totalAllocs.toNat + r.len = p.budget.totalAllocs.toNat + r'.len)
    (hbytes_le : budget.totalBytes ≤ maxProcessDeviceBytes)
    (hallocs_le : budget.totalAllocs.toNat ≤ maxProcessDeviceAllocs)
    (hown : r'.totalDeviceBytes.toNat = r'.liveBytes) : (p.update id r' budget).Accounted where
  bytes := by
    have htotal : weight (·.liveBytes) (p.registries.insert id r') + r.liveBytes =
        weight (·.liveBytes) p.registries + r'.liveBytes := weight_replace _ hr
    rw [h.bytes] at hbytes
    exact Nat.add_right_cancel (hbytes.trans htotal.symm)
  allocs := by
    have htotal : weight (·.len) (p.registries.insert id r') + r.len = weight (·.len) p.registries + r'.len :=
      weight_replace _ hr
    rw [h.allocs] at hallocs
    exact Nat.add_right_cancel (hallocs.trans htotal.symm)
  bytes_le := hbytes_le
  allocs_le := hallocs_le
  own other s hs := by
    rcases lookup_insert_cases hs with ⟨-, rfl⟩ | ⟨-, hs⟩
    · exact hown
    · exact h.own other s hs

/-- A registry that loses entries at most still has only what was allocated. -/
theorem Recorded.update (h : p.Recorded) (hr : p.registries.lookup id = some r)
    (hnext : r'.nextHandle = r.nextHandle)
    (hentries : ∀ handle entry, r'.entries.lookup handle = some entry → r.entries.lookup handle = some entry) :
    (p.update id r' budget).Recorded where
  live_lt other hmem := by
    rcases (AList.mem_insert _).mp hmem with rfl | hmem
    · exact h.live_lt _ (AList.lookup_isSome.mp (hr ▸ rfl))
    · exact h.live_lt other hmem
  registry_lt := h.registry_lt
  entry other s handle entry hs hentry := by
    rcases lookup_insert_cases hs with ⟨rfl, rfl⟩ | ⟨-, hs⟩
    · exact h.entry _ r handle entry hr (hentries handle entry hentry)
    · exact h.entry other s handle entry hs hentry
  below other s hs hne := by
    rcases lookup_insert_cases hs with ⟨rfl, rfl⟩ | ⟨-, hs⟩
    · rw [hnext] at hne ⊢
      exact h.below _ r hr hne
    · exact h.below other s hs hne
  distinct := h.distinct

/-! ## Inserts -/

theorem notMem_nextHandle (h : p.Recorded) (hr : p.registries.lookup id = some r)
    (hne : r.nextHandle ≠ 0) : r.nextHandle ∉ r.entries := by
  intro hmem
  obtain ⟨entry, hentry⟩ := Option.isSome_iff_exists.mp (AList.lookup_isSome.mpr hmem)
  exact UInt64.lt_irrefl _ (h.below id r hr hne _ (h.entry id r _ entry hr hentry) rfl)

variable {entry : DeviceMemEntry}

theorem Accounted.admit (h : p.Accounted) (hrec : p.Recorded) (hr : p.registries.lookup id = some r)
    (hne : r.nextHandle ≠ 0) (hadmits : r.Admits entry r') (hcharged : p.budget.Charged entry.size budget) :
    (p.update id r' budget).Accounted := by
  have hnew := notMem_nextHandle hrec hr hne
  have hlive : r'.liveBytes = entry.size.toNat + r.liveBytes := by
    rw [DeviceMemRegistry.liveBytes, hadmits.entries, weight_insert_new _ hnew, DeviceMemRegistry.liveBytes]
  have hlen : r'.len = r.len + 1 := by
    rw [len, hadmits.entries, AList.keys_insert, length_cons, erase_of_not_mem hnew, len]
  apply h.update hr
  · rw [hcharged.bytes, hlive]
    omega
  · rw [hcharged.allocs, hlen]
    omega
  · exact hcharged.bytes_le
  · exact hcharged.allocs_le
  · rw [hadmits.bytes, hlive, h.own id r hr]
    omega

theorem Recorded.admit (h : p.Recorded) (hr : p.registries.lookup id = some r)
    (hne : r.nextHandle ≠ 0) (hadmits : r.Admits entry r') :
    Recorded { p.update id r' budget with allocations := ⟨id, r.nextHandle, entry⟩ :: p.allocations } where
  live_lt other hmem := by
    rcases (AList.mem_insert _).mp hmem with rfl | hmem
    · exact h.live_lt _ (AList.lookup_isSome.mp (hr ▸ rfl))
    · exact h.live_lt other hmem
  registry_lt a ha := by
    rcases mem_cons.mp ha with rfl | ha
    · exact h.live_lt id (AList.lookup_isSome.mp (hr ▸ rfl))
    · exact h.registry_lt a ha
  entry other s handle found hs hfound := by
    apply mem_cons.mpr
    rcases lookup_insert_cases hs with ⟨rfl, rfl⟩ | ⟨-, hs⟩
    · rw [hadmits.entries] at hfound
      by_cases hhandle : handle = r.nextHandle
      · subst hhandle
        rw [AList.lookup_insert] at hfound
        exact .inl (by rw [Option.some.inj hfound])
      · rw [AList.lookup_insert_ne hhandle] at hfound
        exact .inr (h.entry _ r handle found hr hfound)
    · exact .inr (h.entry other s handle found hs hfound)
  below other s hs hne' a ha hid := by
    rcases lookup_insert_cases hs with ⟨rfl, rfl⟩ | ⟨hother, hs⟩
    · -- the counter has moved up by one, past the handle it has just given out
      rw [hadmits.next] at hne' ⊢
      have hlt : r.nextHandle < r.nextHandle + 1 := by
        rw [UInt64.lt_iff_toNat_lt, toNat_add_one hne']
        exact Nat.lt_succ_self _
      rcases mem_cons.mp ha with rfl | ha
      · exact hlt
      · exact UInt64.lt_trans (h.below _ r hr hne a ha hid) hlt
    · rcases mem_cons.mp ha with rfl | ha
      · exact absurd hid.symm hother
      · exact h.below other s hs hne' a ha hid
  distinct := by
    rw [map_cons, nodup_cons]
    refine ⟨?_, h.distinct⟩
    intro hmem
    obtain ⟨a, ha, heq⟩ := mem_map.mp hmem
    obtain ⟨hid, hhandle⟩ := Prod.mk.inj heq
    exact UInt64.lt_irrefl _ (hhandle ▸ h.below id r hr hne a ha hid)

/-! ## Frees and drops -/

theorem Accounted.free (h : p.Accounted) {handle : UInt64}
    (hr : p.registries.lookup id = some r) (hentry : r.entries.lookup handle = some entry) :
    (p.update id
      { r with
        entries := r.entries.erase handle
        totalDeviceBytes := saturatingSub r.totalDeviceBytes entry.size }
      (p.budget.release entry.size)).Accounted := by
  have hbytes : r.liveBytes = entry.size.toNat + weight (·.size.toNat) (r.entries.erase handle) :=
    weight_erase _ hentry
  have hbudget : r.liveBytes ≤ p.budget.totalBytes.toNat := h.bytes ▸ le_weight _ hr
  have hallocs : r.len ≤ p.budget.totalAllocs.toNat := h.allocs ▸ le_weight _ hr
  have hmem : handle ∈ r.entries.keys := AList.lookup_isSome.mp (hentry ▸ rfl)
  have hlen : (r.entries.erase handle).keys.length = r.len - 1 := by
    rw [AList.keys_erase, length_erase_of_mem hmem, len]
  have hpos : 0 < r.len := length_pos_of_mem hmem
  apply h.update hr
  · show (saturatingSub p.budget.totalBytes entry.size).toNat + r.liveBytes =
      p.budget.totalBytes.toNat + weight (·.size.toNat) (r.entries.erase handle)
    rw [toNat_saturatingSub]
    omega
  · show (saturatingSub p.budget.totalAllocs 1).toNat + r.len =
      p.budget.totalAllocs.toNat + (r.entries.erase handle).keys.length
    rw [toNat_saturatingSub, hlen, UInt64.toNat_one]
    omega
  · exact UInt64.le_trans (saturatingSub_le _ _) h.bytes_le
  · exact (UInt64.le_iff_toNat_le.mp (saturatingSub_le _ _)).trans h.allocs_le
  · rw [toNat_saturatingSub, h.own id r hr, hbytes, DeviceMemRegistry.liveBytes]
    exact Nat.add_sub_cancel_left _ _

/-- Nothing is credited for a registry that goes away, so it must have nothing to be credited. -/
theorem accounted_drop_iff (h : p.Accounted) (hr : p.registries.lookup id = some r) :
    (p.step (.drop id)).Accounted ↔ r.len = 0 := by
  have hallocs : weight (·.len) p.registries = r.len + weight (·.len) (p.registries.erase id) := weight_erase _ hr
  have hbytes : weight (·.liveBytes) p.registries = r.liveBytes + weight (·.liveBytes) (p.registries.erase id) :=
    weight_erase _ hr
  constructor
  · intro hafter
    have hsame : p.budget.totalAllocs.toNat = weight (·.len) (p.registries.erase id) := hafter.allocs
    rw [h.allocs, hallocs] at hsame
    omega
  · intro hlen
    have hempty : r.liveBytes = 0 := by
      have hentries : r.entries.entries = [] := map_eq_nil_iff.mp (length_eq_zero_iff.mp hlen)
      rw [DeviceMemRegistry.liveBytes, weight, hentries, map_nil, sum_nil]
    refine ⟨?_, ?_, h.bytes_le, h.allocs_le, fun other s hs => h.own other s (lookup_erase_cases hs).2⟩
    · exact h.bytes.trans (by rw [hbytes, hempty, Nat.zero_add]; rfl)
    · exact h.allocs.trans (by rw [hallocs, hlen, Nat.zero_add]; rfl)

theorem Recorded.drop (h : p.Recorded) : (p.step (.drop id)).Recorded where
  live_lt other hmem := h.live_lt other (AList.mem_erase.mp hmem).2
  registry_lt := h.registry_lt
  entry other s handle entry hs := h.entry other s handle entry (lookup_erase_cases hs).2
  below other s hs := h.below other s (lookup_erase_cases hs).2
  distinct := h.distinct

theorem Accounted.create (h : p.Accounted) (hrec : p.Recorded) : (p.step .create).Accounted := by
  have hnew := fresh_of_recorded hrec
  refine ⟨?_, ?_, h.bytes_le, h.allocs_le, ?_⟩
  · exact h.bytes.trans (by rw [step, weight_insert_new _ hnew]; exact (Nat.zero_add _).symm)
  · exact h.allocs.trans (by rw [step, weight_insert_new _ hnew]; exact (Nat.zero_add _).symm)
  · intro other s hs
    rcases lookup_insert_cases hs with ⟨-, rfl⟩ | ⟨-, hs⟩
    · rfl
    · exact h.own other s hs

theorem Recorded.create (h : p.Recorded) : (p.step .create).Recorded where
  live_lt other hmem := by
    rcases (AList.mem_insert _).mp hmem with rfl | hmem
    · exact Nat.lt_succ_self _
    · exact Nat.lt_succ_of_lt (h.live_lt other hmem)
  registry_lt a ha := Nat.lt_succ_of_lt (h.registry_lt a ha)
  entry other s handle entry hs hentry := by
    rcases lookup_insert_cases hs with ⟨-, rfl⟩ | ⟨-, hs⟩
    · cases hentry
    · exact h.entry other s handle entry hs hentry
  below other s hs hne a ha hid := by
    rcases lookup_insert_cases hs with ⟨rfl, -⟩ | ⟨-, hs⟩
    · exact absurd hid (h.registry_lt a ha).ne
    · exact h.below other s hs hne a ha hid
  distinct := h.distinct

/-! ## Runs -/

theorem step_keeps (p : Process) (op : Op) (h : p.Accounted ∧ p.Recorded) (htidy : p.Tidy op) :
    (p.step op).Accounted ∧ (p.step op).Recorded := by
  obtain ⟨hacc, hrec⟩ := h
  cases op with
  | create => exact ⟨hacc.create hrec, hrec.create⟩
  | insert id entry =>
    cases hr : p.registries.lookup id with
    | none => simp only [step, hr]; exact ⟨hacc, hrec⟩
    | some r =>
      simp only [step, hr, Process.insert]
      rcases r.insert_cases p.budget entry with hno | ⟨r', budget, hyes, hadmits, hcharged⟩
      · rw [hno]
        exact ⟨hacc.update hr rfl rfl hacc.bytes_le hacc.allocs_le (hacc.own id r hr),
          hrec.update hr rfl fun _ _ hentry => hentry⟩
      · rw [hyes]
        have hadmitted := hacc.admit hrec hr (htidy r hr) hadmits hcharged
        exact ⟨⟨hadmitted.1, hadmitted.2, hadmitted.3, hadmitted.4, hadmitted.5⟩, hrec.admit hr (htidy r hr) hadmits⟩
  | free id handle owner =>
    cases hr : p.registries.lookup id with
    | none => simp only [step, hr]; exact ⟨hacc, hrec⟩
    | some r =>
      simp only [step, hr, Process.free]
      rcases r.free_cases p.budget handle owner with hno | ⟨entry, hentry, -, hyes⟩
      · rw [hno]
        exact ⟨hacc.update hr rfl rfl hacc.bytes_le hacc.allocs_le (hacc.own id r hr),
          hrec.update hr rfl fun _ _ hentry => hentry⟩
      · rw [hyes]
        refine ⟨hacc.free hr hentry, hrec.update hr rfl ?_⟩
        intro other found hfound
        exact (lookup_erase_cases hfound).2
  | drop id =>
    refine ⟨?_, hrec.drop⟩
    cases hr : p.registries.lookup id with
    | some r => exact (accounted_drop_iff hacc hr).mpr (htidy r hr)
    | none =>
      simp only [step, erase_of_lookup_none hr]
      exact hacc

end Process

/-- In every state a tidy run reaches, the budget is what the live registries hold and keeps to its caps,
each registry's counter is its own bytes, a failed insert changes nothing, buffers are found and freed by
their owner only, no handle was given out twice, and a registry may be dropped exactly when it is empty. -/
theorem device_budget_accounts (ops : List Op) (htidy : Along step Process.Tidy .new ops) :
    let p := run step .new ops
    p.Accounted ∧
      (p.allocations.map fun a => (a.registry, a.handle)).Nodup ∧
      ∀ id r, p.registries.lookup id = some r →
        (∀ entry e, (r.insert p.budget entry).1 = .error e → (r.insert p.budget entry).2 = (r, p.budget)) ∧
        (∀ handle owner found, r.lookup handle owner = .ok found →
          found.owner = owner ∧ ⟨id, handle, found.owner, found.size⟩ ∈ p.allocations) ∧
        (∀ handle owner entry, (r.free p.budget handle owner).1 = .ok entry →
          entry.owner = owner ∧ ⟨id, handle, entry⟩ ∈ p.allocations) ∧
        ((p.step (.drop id)).Accounted ↔ r.len = 0) := by
  intro p
  have hnew : Process.new.Accounted ∧ Process.new.Recorded := by
    refine ⟨⟨rfl, rfl, by decide, by decide, nofun⟩, ⟨?_, nofun, nofun, nofun, nodup_nil⟩⟩
    intro id hmem
    exact absurd hmem (AList.notMem_empty id)
  obtain ⟨hacc, hrec⟩ := htidy.keeps Process.step_keeps hnew
  refine ⟨hacc, hrec.distinct, fun id r hr => ⟨?_, ?_, ?_, Process.accounted_drop_iff hacc hr⟩⟩
  · intro entry e hfailed
    rcases r.insert_cases p.budget entry with hno | ⟨r', budget, hyes, -, -⟩
    · rw [hno]
    · rw [hyes] at hfailed
      cases hfailed
  · intro handle owner found hfound
    obtain ⟨hentry, howner⟩ := DeviceMemRegistry.lookup_ok hfound
    exact ⟨howner, hrec.entry id r handle _ hr hentry⟩
  · intro handle owner entry hfreed
    rcases r.free_cases p.budget handle owner with hno | ⟨freed, hentry, howner, hyes⟩
    · rw [hno] at hfreed
      cases hfreed
    · rw [hyes] at hfreed
      cases hfreed
      exact ⟨howner, hrec.entry id r handle _ hr hentry⟩

/-- Two instances allocate; the first frees its buffer and goes away. -/
def twoInstances : List Op :=
  [.create, .create, .insert 0 ⟨1, 4096⟩, .insert 1 ⟨2, 256⟩, .free 0 1 1, .drop 0]

theorem device_budget_accounts_twoInstances :
    Along step Process.Tidy .new twoInstances ∧
      (run step .new twoInstances).budget = ⟨256, 1⟩ ∧ (run step .new twoInstances).Accounted := by
  have htidy : Along step Process.Tidy .new twoInstances := by
    refine ⟨trivial, trivial, ?_, ?_, trivial, ?_, trivial⟩
    all_goals
      intro r hr
      cases hr
      decide
  exact ⟨htidy, by decide, (device_budget_accounts twoInstances htidy).1⟩

/-- A registry is dropped with a buffer in it: no registry is left, and the process stays charged for the
buffer. -/
theorem dropped_registry_stays_charged :
    let p := run step .new [.create, .insert 0 ⟨1, 4096⟩, .drop 0]
    p.registries.keys = [] ∧ p.budget = ⟨4096, 1⟩ ∧ ¬ p.Accounted := by
  refine ⟨by decide, by decide, fun h => ?_⟩
  have hallocs : (1 : Nat) = 0 := h.allocs
  exact absurd hallocs (by decide)

end TensorWasm.WasiGpu
