import TensorWasm.Proof.Offload
import TensorWasm.Proof.PoolTasks

/-!
# Concurrent invokes through the pool

What the invariant says about what was handed out and about the calls that were run, along every schedule of
any number of invokes.
-/

namespace TensorWasm.Executor

open Lib
open Wasm (Module)

section System

variable (x : TensorWasmExecutor) {ι : Type} (reqs : ι → SpawnConfig × Module)

/-- One invoke for each request, on a new executor. -/
def invokes : Tasks ι Fate State where
  shared := State.new
  programs i := do
    let _ ← (x.invoke (reqs i).1 (reqs i).2).run
    return ()

/-- The state after a schedule: who takes the next action, and what the outside decides then. -/
def afterSchedule [DecidableEq ι] (schedule : List (ι × Fate)) : State :=
  (Lib.run Tasks.step (invokes x reqs) schedule).shared

end System

section Runs

variable {x : TensorWasmExecutor} {ι : Type} {reqs : ι → SpawnConfig × Module}

theorem poolInv_new : PoolInv x reqs State.new fun _ => ⟨none, none, none⟩ := by
  refine ⟨⟨nofun, nofun, nofun, nofun⟩, fun _ => .fresh,
    ⟨?_, nofun, nofun, nofun, List.nodup_nil, nofun, nofun⟩, ?_, ?_⟩
  · intro r _
    rfl
  · intro i
    exact ⟨nofun, nofun, nofun, nofun⟩
  · intro i j id hid
    cases hid

theorem stores_afterSchedule [DecidableEq ι] (x : TensorWasmExecutor) (reqs : ι → SpawnConfig × Module)
    (schedule : List (ι × Fate)) :
    ∃ loc, Stores x reqs loc (afterSchedule x reqs schedule) := by
  have hsound : Tasks.Sound (PoolInv x reqs) (invokes x reqs) := by
    refine ⟨fun _ => ⟨none, none, none⟩, poolInv_new, fun i => ?_⟩
    apply Tasks.Keeps.bind
    exact (invoke_keeps rfl).mono fun _ _ _ => trivial
  obtain ⟨shares, ⟨-, loc, hs⟩, -⟩ := hsound.run schedule
  exact ⟨loc, hs.stores⟩

theorem offloaded_eq_or (x : TensorWasmExecutor) (request : SpawnConfig × Module) :
    x.offloaded request = request.2 ∨ x.config.autoOffload = true ∧ x.jitCache = true := by
  unfold TensorWasmExecutor.offloaded Exec.maybeRewriteForOffload
  cases x.config.autoOffload <;> cases x.jitCache <;> simp

end Runs

/-! ## Isolation -/

/-- What was handed out is the caller's and nobody else's, and was never called. -/
structure Isolated (x : TensorWasmExecutor) (h : Served) : Prop where
  tenant : h.snapshot.tenantId = h.caller.tenantId
  module : x.moduleHash h.snapshot.module = x.moduleHash h.wasm ∨
    x.config.autoOffload = true ∧ x.jitCache = true ∧
      x.moduleHash h.snapshot.module = x.moduleHash (x.offloaded (h.caller, h.wasm))
  unused : h.snapshot.calls = 0
  input : h.snapshot.input = h.caller.input
  streaming : h.snapshot.streaming = h.caller.streaming

section Isolation

variable {x : TensorWasmExecutor} {ι : Type} {reqs : ι → SpawnConfig × Module} {i : ι}

theorem MadeFor.isolated {h : Served} (hmade : MadeFor x reqs i h.snapshot)
    (hcaller : h.caller = (reqs i).1) (hwasm : h.wasm = (reqs i).2) : Isolated x h := by
  rcases hmade with ⟨-, hpoolable, j, module, hpoolable', hkey, hhash, hnew⟩ | ⟨module, hhash, hnew⟩
  · refine ⟨?_, .inl ?_, ?_, ?_, ?_⟩
    · rw [hnew, hcaller]
      exact congrArg PoolKey.tenantId hkey
    · rw [hnew, hwasm]
      exact hhash
    · rw [hnew]
      rfl
    · rw [hnew, hcaller, hpoolable.2]
      exact hpoolable'.2
    · rw [hnew, hcaller, hpoolable.1]
      exact hpoolable'.1
  · refine ⟨?_, ?_, ?_, ?_, ?_⟩
    · rw [hnew, hcaller]
      rfl
    · rw [hnew, hcaller, hwasm]
      rcases offloaded_eq_or x (reqs i) with hsame | ⟨hoffload, hcache⟩
      · exact .inl (hhash.trans (congrArg x.moduleHash hsame))
      · exact .inr ⟨hoffload, hcache, hhash⟩
    · rw [hnew]
      rfl
    · rw [hnew, hcaller]
      rfl
    · rw [hnew, hcaller]
      rfl

/-- Along every schedule of invokes, what is handed out is isolated, and no instance is handed out twice. -/
theorem handed_out_isolated [DecidableEq ι] (x : TensorWasmExecutor) (reqs : ι → SpawnConfig × Module)
    (schedule : List (ι × Fate)) :
    (∀ h ∈ (afterSchedule x reqs schedule).served,
        Isolated x h ∧ ∃ i, h.caller = (reqs i).1 ∧ h.wasm = (reqs i).2) ∧
      ((afterSchedule x reqs schedule).served.map Served.inst).Nodup := by
  obtain ⟨loc, hstores⟩ := stores_afterSchedule x reqs schedule
  refine ⟨?_, hstores.servedOnce⟩
  intro h hh
  obtain ⟨-, i, hcaller, hwasm, hmade⟩ := hstores.served h hh
  exact ⟨hmade.isolated hcaller hwasm, i, hcaller, hwasm⟩

/-- An executor with a pool; a digest tells modules of different numbers of sections apart. -/
def pooledExecutor (warm : Nat) (maxCallDuration : Option Duration) (offload : Bool) : TensorWasmExecutor where
  config := ⟨none, none, maxCallDuration, 8, offload, some Jit.tunedOptions.detector⟩
  jitCache := offload
  pool := some ⟨warm, 0⟩
  blake3 := fun bytes => bytes
  bytesOf := fun module => [UInt8.ofNat module.length]
  reencoder := Wasm.plainDriver _

/-- One task takes so many actions, none of which fails. -/
def smoothly {ι : Type} (i : ι) (actions : Nat) : List (ι × Fate) := List.replicate actions (i, ⟨none, false⟩)

/-- Two invokes of a tenant, one after the other: each is handed an instance of its own. -/
theorem handed_out_isolated_twice :
    let s := afterSchedule (pooledExecutor 1 none false) (fun _ : Fin 2 => (⟨7, none, none, []⟩, []))
      (smoothly 0 60 ++ smoothly 1 60)
    (s.served.map Served.inst).Nodup ∧ s.served.length = 2 :=
  ⟨(handed_out_isolated (pooledExecutor 1 none false) _ _).2, by decide +kernel⟩

/-- With offloading on, a draw that misses is served with an instance of the rewritten module. -/
theorem offloaded_miss_other_hash :
    (afterSchedule (pooledExecutor 0 none true) (fun _ : Unit => (⟨7, none, none, []⟩, Jit.hotAddModule))
      (smoothly () 60)).served.map (fun h =>
        ((pooledExecutor 0 none true).moduleHash h.snapshot.module,
          (pooledExecutor 0 none true).moduleHash h.wasm)) = [([6], [5])] := by
  decide +kernel

end Isolation

/-! ## Budgets -/

section Budgets

variable {x : TensorWasmExecutor} {ι : Type} {reqs : ι → SpawnConfig × Module} {i : ι}

/-- Requests that one channel may serve have deadlines of the same effect. -/
def SameBudgets (x : TensorWasmExecutor) (reqs : ι → SpawnConfig × Module) : Prop :=
  ∀ i j, (reqs i).1.Poolable → (reqs j).1.Poolable → x.keyOf (reqs i) = x.keyOf (reqs j) →
    x.effectiveCallBudget (reqs i).1.deadline = x.effectiveCallBudget (reqs j).1.deadline

theorem DeadlineFor.budget (hsame : SameBudgets x reqs) {deadline : Option Duration}
    (h : DeadlineFor x reqs i deadline) :
    x.effectiveCallBudget deadline = x.effectiveCallBudget (reqs i).1.deadline := by
  obtain ⟨inst, hmade, rfl⟩ := h
  rcases hmade with ⟨-, hpoolable, j, module, hpoolable', hkey, -, rfl⟩ | ⟨module, -, rfl⟩
  · exact hsame j i hpoolable' hpoolable hkey
  · rfl

/-- The calls have the budgets of their requests if instances made for a request have. -/
theorem callLog_budgets [DecidableEq ι] (hown : ∀ i deadline, DeadlineFor x reqs i deadline →
      x.effectiveCallBudget deadline = x.effectiveCallBudget (reqs i).1.deadline) (schedule : List (ι × Fate)) :
    ∀ h ∈ (afterSchedule x reqs schedule).callLog,
      (∃ i, h.caller = (reqs i).1) ∧ h.budget = x.effectiveCallBudget h.caller.deadline := by
  obtain ⟨loc, hstores⟩ := stores_afterSchedule x reqs schedule
  intro h hh
  obtain ⟨i, deadline, hcaller, hdeadline, hbudget⟩ := hstores.log h hh
  refine ⟨⟨i, hcaller⟩, ?_⟩
  rw [hbudget, hcaller]
  exact hown i deadline hdeadline

/-- Along every schedule, a call runs under the budget of its own request. -/
theorem call_budget_own [DecidableEq ι] (x : TensorWasmExecutor) (reqs : ι → SpawnConfig × Module)
    (hsame : SameBudgets x reqs) (schedule : List (ι × Fate)) :
    ∀ h ∈ (afterSchedule x reqs schedule).callLog,
      (∃ i, h.caller = (reqs i).1) ∧ h.budget = x.effectiveCallBudget h.caller.deadline :=
  callLog_budgets (fun _ _ hdeadline => hdeadline.budget hsame) schedule

/-- Without a pool nothing is asked of the deadlines. -/
theorem call_budget_unpooled [DecidableEq ι] (hpool : x.pool = none) (schedule : List (ι × Fate)) :
    ∀ h ∈ (afterSchedule x reqs schedule).callLog,
      (∃ i, h.caller = (reqs i).1) ∧ h.budget = x.effectiveCallBudget h.caller.deadline := by
  refine callLog_budgets ?_ schedule
  rintro i _ ⟨inst, ⟨hsome, -⟩ | ⟨module, -, rfl⟩, rfl⟩
  · exact absurd hpool hsome
  · rfl

/-- Two deadlines above a ceiling of 3. -/
def aboveCeiling (i : Fin 2) : SpawnConfig × Module := (⟨7, some (5 + i), none, []⟩, [])

/-- They have the same effect. -/
theorem call_budget_own_ceiling :
    let x := pooledExecutor 1 (some 3) false
    SameBudgets x aboveCeiling ∧
      ∀ h ∈ (afterSchedule x aboveCeiling (smoothly 0 60 ++ smoothly 1 60)).callLog,
        (∃ i, h.caller = (aboveCeiling i).1) ∧ h.budget = x.effectiveCallBudget h.caller.deadline := by
  intro x
  have hsame : SameBudgets x aboveCeiling := by
    intro i j _ _ _
    show some (min (5 + i.1) 3) = some (min (5 + j.1) 3)
    rw [Nat.min_eq_right (by omega), Nat.min_eq_right (by omega)]
  exact ⟨hsame, call_budget_own x aboveCeiling hsame _⟩

/-- The second invoke asks for a deadline of 5 and runs under the 1000 of the first. -/
theorem warm_call_other_budget :
    (afterSchedule (pooledExecutor 1 none false)
      (fun i : Fin 2 => (⟨7, some (if i = 0 then 1000 else 5), none, []⟩, []))
      (smoothly 0 60 ++ smoothly 1 60)).callLog =
        [⟨⟨7, some 5, none, []⟩, some 1000⟩, ⟨⟨7, some 1000, none, []⟩, some 1000⟩] := by
  decide +kernel

end Budgets

end TensorWasm.Executor
