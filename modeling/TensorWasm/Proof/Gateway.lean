import TensorWasm.Api.Gateway

/-!
# Tenants do not get at each other's records

Every handler checks the scope of the token first, before it looks at any registry. A handler that looks a
record up compares its owner with the tenant of the request before it does anything else with it. `Denies`
and `Respects` are the two halves of what follows: a request for a record of somebody else gets one answer,
whatever is in the record, and all that is done with modules and jobs is done with the tenant's own.
-/

namespace TensorWasm.Api

open Lib
open Lib.Prog (Returns)
open Prog (returns_access returns_consult)

/-- The token covers the tenant. -/
def InScope (auth : Option AuthContext) (t : TenantId) : Prop :=
  ∃ ctx, auth = some ctx ∧ ctx.scope.allows t = true

variable {auth : Option AuthContext} {t : TenantId}

theorem requireAuthorize_of_inScope (h : InScope auth t) : requireAuthorize auth t = .ok () := by
  obtain ⟨ctx, rfl, hallows⟩ := h
  simp [requireAuthorize, AuthContext.authorizeTenant, hallows]

theorem requireAuthorize_of_not_inScope (h : ¬ InScope auth t) : ∃ e, requireAuthorize auth t = .error e := by
  cases auth with
  | none => exact ⟨_, rfl⟩
  | some ctx =>
    have hallows : ctx.scope.allows t = false := by
      by_contra hne
      exact h ⟨ctx, rfl, by simpa using hne⟩
    exact ⟨_, by simp only [requireAuthorize, AuthContext.authorizeTenant, hallows]; rfl⟩

/-! ## Outside the scope -/

section Refused

variable {δ δ' : Type} {intoResponse : δ → Response}

theorem respond_checkBind_error {α : Type} {x : Except δ α} {e : δ} (hx : x = .error e)
    (f : α → Session δ HttpResponse) :
    respond intoResponse ((liftM x : Session δ α) >>= f) = .done (.json (intoResponse e)) := by
  subst hx
  rfl

theorem handle_refused (gw : Gateway) {auth : Option AuthContext} {tenant : Option TenantId}
    (h : ¬ InScope auth (tenant.getD 0)) (req : Request) :
    ∃ response, req.handle gw auth tenant = .done response := by
  obtain ⟨e, he⟩ := requireAuthorize_of_not_inScope h
  have hopenai : (requireAuthorize auth (tenant.getD 0)).mapError ApiError.intoResponse
      = .error e.intoResponse := by
    rw [he]
    rfl
  cases req with
  | completions payload | chatCompletions payload => exact ⟨_, respond_checkBind_error hopenai _⟩
  | _ => exact ⟨_, respond_checkBind_error he _⟩

end Refused

/-! ## A record of somebody else -/

/-- In the states in question the session ends with one error and leaves everything as it is. -/
def Denies {δ α : Type} (states : AppState → Prop) (h : Session δ α) : Prop :=
  ∃ e, ∀ s, states s → Returns (fun _ => True) (fun out s' => out = .error e ∧ s' = s) h.run s

section Denies

variable {δ α β : Type} {states : AppState → Prop} {t : TenantId}

variable {f : α → Session δ β}

theorem denies_checkBind {x : Except δ α} (hf : ∀ a, x = .ok a → Denies states (f a)) :
    Denies states ((liftM x : Session δ α) >>= f) := by
  cases x with
  | ok a =>
    obtain ⟨e, he⟩ := hf a rfl
    exact ⟨e, he⟩
  | error e => exact ⟨e, fun s _ => ⟨rfl, rfl⟩⟩

variable {lookup : AppState → Option α}

theorem returns_owned {ok : Outside → Prop} {s : AppState} {owner : α → TenantId}
    {missing foreign : δ} {Q : Except δ β → AppState → Prop} (hmissing : lookup s = none → Q (.error missing) s)
    (hforeign : ∀ rec, lookup s = some rec → owner rec ≠ t → Q (.error foreign) s)
    (howned : ∀ rec, lookup s = some rec → owner rec = t → Returns ok Q (f rec).run s) :
    Returns ok Q (owned lookup owner t missing foreign >>= f).run s := by
  refine Returns.bindExcept (Returns.liftBind (returns_access ?_))
  cases hrec : lookup s with
  | none => exact hmissing hrec
  | some rec =>
    show Returns ok _ (ExceptT.run (if owner rec ≠ t then throw foreign else pure rec)) s
    by_cases ho : owner rec = t
    · rw [if_neg (not_not.mpr ho)]
      exact howned rec hrec ho
    · rw [if_pos ho]
      exact hforeign rec hrec ho

theorem denies_owned {owner : α → TenantId} {missing foreign : δ}
    (h : ∀ s, states s → ∃ rec, lookup s = some rec ∧ owner rec ≠ t) :
    Denies states (owned lookup owner t missing foreign >>= f) := by
  refine ⟨foreign, fun s hs => ?_⟩
  obtain ⟨rec, hrec, howner⟩ := h s hs
  refine returns_owned (fun hnone => ?_) (fun rec' _ _ => ⟨rfl, rfl⟩) (fun rec' hrec' ho => ?_)
  · rw [hrec] at hnone
    cases hnone
  · rw [hrec] at hrec'
    cases hrec'
    exact absurd ho howner

theorem Denies.respond {h : Session δ HttpResponse} (hd : Denies states h) (intoResponse : δ → Response) :
    ∃ response, ∀ s, states s →
      Returns (fun _ => True) (fun out s' => out = response ∧ s' = s) (respond intoResponse h) s := by
  obtain ⟨e, he⟩ := hd
  refine ⟨.json (intoResponse e), fun s hs => Returns.bind ((he s hs).mono ?_)⟩
  rintro out s' ⟨rfl, rfl⟩
  exact ⟨rfl, rfl⟩

end Denies

/-- The function a request is about. -/
def Request.functionId? (gw : Gateway) : Request → Option Uuid
  | deleteFunction id => some id
  | invokeFunction id _ => some id
  | invokeFunctionAsync id _ => some id
  | invokeFunctionStream id _ _ => some id
  | snapshotSave payload => payload.toOption.map SnapshotSaveRequest.functionId
  | completions payload => payload.toOption.bind fun req => gw.openaiModelMap req.model
  | chatCompletions payload => payload.toOption.bind fun req => gw.openaiModelMap req.model
  | createFunction _ => none
  | getJob _ => none
  | snapshotRestore _ => none

def Request.jobId? : Request → Option Uuid
  | getJob id => some id
  | _ => none

/-- The request is about a record of another tenant than `t`. -/
def Foreign (gw : Gateway) (t : TenantId) (req : Request) (s : AppState) : Prop :=
  (∃ id rec, req.functionId? gw = some id ∧ s.functions.lookup id = some rec ∧ rec.tenantId ≠ t) ∨
    ∃ id rec, req.jobId? = some id ∧ s.jobs.lookup id = some rec ∧ rec.tenantId ≠ t

variable {map : ModelMap}

theorem lookupModel_eq_ok {model : String} {id : Uuid} (h : lookupModel model map = .ok id) :
    map model = some id := by
  unfold lookupModel at h
  cases hm : map model with
  | none => simp [hm] at h
  | some id' => simpa [hm] using h

variable {tr : TranslatedRequest}

theorem translateCompletions_functionId {req : CompletionsRequest}
    (h : translateCompletionsRequest map req = .ok tr) : map req.model = some tr.functionId := by
  cases hid : lookupModel req.model map with
  | error e => simp [translateCompletionsRequest, hid, bind, Except.bind] at h
  | ok id =>
    rw [lookupModel_eq_ok hid]
    simp only [translateCompletionsRequest, hid, bind, Except.bind] at h
    repeat' split at h
    all_goals cases h <;> rfl

theorem translateChatCompletions_functionId {req : ChatCompletionsRequest}
    (h : translateChatCompletionsRequest map req = .ok tr) : map req.model = some tr.functionId := by
  cases hid : lookupModel req.model map with
  | error e => simp [translateChatCompletionsRequest, hid, bind, Except.bind] at h
  | ok id =>
    rw [lookupModel_eq_ok hid]
    simp only [translateChatCompletionsRequest, hid, bind, Except.bind] at h
    repeat' split at h
    all_goals cases h <;> rfl

section Foreign

variable {gw : Gateway} {auth : Option AuthContext} {t : TenantId} {states : AppState → Prop}

/-- A record of another tenant stands under the id. -/
def ForeignFunction (t : TenantId) (id : Uuid) (s : AppState) : Prop :=
  ∃ rec, s.functions.lookup id = some rec ∧ rec.tenantId ≠ t

theorem runTranslated_denies (model : String) (object : OpenAiObject)
    (h : ∀ s, states s → ForeignFunction t tr.functionId s) : Denies states (runTranslated gw t tr model object) :=
  denies_owned h

theorem openAiHandler_denies {ρ : Type} {translate : ρ → Except OpenAiError TranslatedRequest}
    {model : ρ → String} {payload : Payload ρ} (object : OpenAiObject)
    (htranslate : ∀ req tr, translate req = .ok tr → gw.openaiModelMap (model req) = some tr.functionId)
    (h : ∀ s, states s → ∃ id, (payload.toOption.bind fun req => gw.openaiModelMap (model req)) = some id ∧
      ForeignFunction t id s) :
    Denies states (openAiHandler gw auth t translate model object payload) := by
  refine denies_checkBind fun _ _ => denies_checkBind fun req hreq => denies_checkBind fun tr htr => ?_
  refine runTranslated_denies _ _ fun s hs => ?_
  obtain ⟨id, hid, hforeign⟩ := h s hs
  -- the request was read and translated, so the id is the one its model stands for
  cases payload with
  | error rej => exact nomatch hreq
  | ok req' =>
    cases hreq
    cases htr' : translate req with
    | error e =>
      rw [htr'] at htr
      cases htr
    | ok tr' =>
      rw [htr'] at htr
      cases htr
      have hsome : gw.openaiModelMap (model req) = some id := hid
      rw [htranslate req tr htr'] at hsome
      cases hsome
      exact hforeign

theorem snapshotSave_denies {payload : Payload SnapshotSaveRequest}
    (h : ∀ s, states s → ∃ id, payload.toOption.map SnapshotSaveRequest.functionId = some id ∧
      ForeignFunction t id s) :
    Denies states (snapshotSave gw auth t payload) := by
  refine denies_checkBind fun _ _ => denies_checkBind fun _ _ => denies_checkBind fun req hreq => ?_
  refine denies_owned fun s hs => ?_
  obtain ⟨id, hid, hforeign⟩ := h s hs
  cases payload with
  | error rej => exact nomatch hreq
  | ok req' =>
    cases hreq
    cases hid
    exact hforeign

theorem handle_foreign (gw : Gateway) (auth : Option AuthContext) (tenant : Option TenantId) (req : Request) :
    ∃ response, ∀ s, Foreign gw (tenant.getD 0) req s →
      Returns (fun _ => True) (fun out s' => out = response ∧ s' = s) (req.handle gw auth tenant) s := by
  -- what the request is about is read off its constructor
  have hfunction : ∀ id, req.functionId? gw = some id → req.jobId? = none →
      ∀ s, Foreign gw (tenant.getD 0) req s → ForeignFunction (tenant.getD 0) id s := by
    rintro id hid hjob s (⟨id', rec, hid', hrec⟩ | ⟨id', rec, hid', hrec⟩)
    · rw [hid] at hid'
      cases hid'
      exact ⟨rec, hrec⟩
    · rw [hjob] at hid'
      cases hid'
  have hoptional : req.jobId? = none → ∀ s, Foreign gw (tenant.getD 0) req s →
      ∃ id, req.functionId? gw = some id ∧ ForeignFunction (tenant.getD 0) id s := by
    rintro hjob s (⟨id, rec, hid, hrec⟩ | ⟨id, rec, hid, hrec⟩)
    · exact ⟨id, hid, rec, hrec⟩
    · rw [hjob] at hid
      cases hid
  cases req with
  | createFunction payload | snapshotRestore payload =>
    exact ⟨.noContent, fun s hs => nomatch (hoptional rfl s hs).choose_spec.1⟩
  | deleteFunction id =>
    exact (denies_checkBind fun _ _ => denies_owned (hfunction id rfl rfl)).respond _
  | invokeFunction id payload | invokeFunctionAsync id payload =>
    exact (denies_checkBind fun _ _ => denies_checkBind fun _ _ => denies_checkBind fun _ _ =>
      denies_owned (hfunction id rfl rfl)).respond _
  | invokeFunctionStream id wantsSse payload =>
    exact (denies_checkBind fun _ _ => denies_owned (hfunction id rfl rfl)).respond _
  | snapshotSave payload => exact (snapshotSave_denies (hoptional rfl)).respond _
  | completions payload =>
    exact (openAiHandler_denies .textCompletion (fun _ _ => translateCompletions_functionId)
      (hoptional rfl)).respond _
  | chatCompletions payload =>
    exact (openAiHandler_denies .chatCompletion (fun _ _ => translateChatCompletions_functionId)
      (hoptional rfl)).respond _
  | getJob id =>
    refine (denies_checkBind fun _ _ => denies_owned ?_).respond _
    rintro s (⟨id', rec, hid', -⟩ | ⟨id', rec, hid', hrec⟩)
    · cases hid'
    · cases hid'
      exact ⟨rec, hrec⟩

end Foreign

/-! ## What is done is done with the tenant's own -/

/-- In `s` the module stands under the id and is the tenant's. -/
def OwnModule (t : TenantId) (s : AppState) (id : Uuid) (wasmBytes : Bytes) : Prop :=
  ∃ rec, s.functions.lookup id = some rec ∧ rec.tenantId = t ∧ rec.wasmBytes = wasmBytes

def OwnCall (t : TenantId) (s : AppState) (call : Call) : Prop :=
  call.tenant = t ∧ OwnModule t s call.functionId call.wasmBytes

def Effect.OwnedBy (t : TenantId) (s : AppState) : Effect → Prop
  | executed call => OwnCall t s call
  | started task => OwnCall t s task.call
  | captured id wasmBytes => OwnModule t s id wasmBytes
  | removed id rec => s.functions.lookup id = some rec ∧ rec.tenantId = t
  | returned id rec => s.jobs.lookup id = some rec ∧ rec.tenantId = t

/-- From `s` to `s'` only the tenant's own records were used, and no function of another tenant was
touched. -/
structure Respects (t : TenantId) (s s' : AppState) : Prop where
  effects : ∃ new, s'.effects = s.effects ++ new ∧ ∀ e ∈ new, e.OwnedBy t s
  functions : ∀ id rec, s.functions.lookup id = some rec → rec.tenantId ≠ t → s'.functions.lookup id = some rec

/-- `Uuid::new_v4` does not give out an id twice. -/
def FreshId (s : AppState) (o : Outside) : Prop := o.uuid ∉ s.functions

namespace Respects

variable {t : TenantId} {s s' : AppState}

theorem refl (t : TenantId) (s : AppState) : Respects t s s := ⟨⟨[], by simp, by simp⟩, fun _ _ h _ => h⟩

theorem of_log {e : Effect} (hf : s'.functions = s.functions) (he : s'.effects = s.effects ++ [e])
    (hown : e.OwnedBy t s) : Respects t s s' := by
  refine ⟨⟨[e], he, ?_⟩, ?_⟩
  · intro e' he'
    rw [List.mem_singleton] at he'
    rwa [he']
  · intro id rec hrec _
    rwa [hf]

theorem insert {o : Outside} (h : FreshId s o) (rec : FunctionRecord) :
    Respects t s { s with functions := s.functions.insert o.uuid rec } := by
  refine ⟨⟨[], by simp, by simp⟩, ?_⟩
  intro id rec' hrec' _
  have hne : id ≠ o.uuid := by
    rintro rfl
    exact h (AList.lookup_isSome.mp (by simp [hrec']))
  exact (AList.lookup_insert_ne hne).trans hrec'

theorem erase {id : Uuid} {rec : FunctionRecord} (hrec : s.functions.lookup id = some rec)
    (howner : rec.tenantId = t) :
    Respects t s ({ s with functions := s.functions.erase id }.log (.removed id rec)) := by
  refine ⟨⟨[_], rfl, ?_⟩, ?_⟩
  · intro e he
    rw [List.mem_singleton] at he
    rw [he]
    exact ⟨hrec, howner⟩
  · intro id' rec' hrec' hne
    have hid : id' ≠ id := by
      rintro rfl
      rw [hrec] at hrec'
      cases hrec'
      exact hne howner
    exact (AList.lookup_erase_ne hid).trans hrec'

end Respects

section Owned

variable {gw : Gateway} {auth : Option AuthContext} {t : TenantId} {s : AppState} {ok : Outside → Prop}
  {δ : Type}

/-- The session keeps to the tenant's own records when it starts in `s`. -/
def KeepsTo (ok : Outside → Prop) (t : TenantId) (s : AppState) (h : Session δ HttpResponse) : Prop :=
  Returns ok (fun _ s' => Respects t s s') h.run s

theorem KeepsTo.checkBind {α : Type} {x : Except δ α} {f : α → Session δ HttpResponse}
    (hf : ∀ a, x = .ok a → KeepsTo ok t s (f a)) : KeepsTo ok t s ((liftM x : Session δ α) >>= f) :=
  Returns.checkBind hf fun _ _ => .refl t s

theorem KeepsTo.owned {α : Type} {lookup : AppState → Option α} {owner : α → TenantId} {missing foreign : δ}
    {f : α → Session δ HttpResponse} (hf : ∀ rec, lookup s = some rec → owner rec = t → KeepsTo ok t s (f rec)) :
    KeepsTo ok t s (Api.owned lookup owner t missing foreign >>= f) :=
  returns_owned (fun _ => .refl t s) (fun _ _ _ => .refl t s) hf

theorem KeepsTo.respond {h : Session δ HttpResponse} (hk : KeepsTo ok t s h) (intoResponse : δ → Response) :
    Returns ok (fun _ s' => Respects t s s') (respond intoResponse h) s := by
  refine Returns.bind (hk.mono ?_)
  intro out s' hs'
  cases out with
  | ok response | error e => exact hs'

theorem returns_enterJob {β : Type} {f : Unit → Session ApiError β} {Q : Except ApiError β → AppState → Prop}
    (hfull : ∀ e, Q (.error e) s) (henter : Returns ok Q (f ()).run { s with jobsActive := s.jobsActive + 1 }) :
    Returns ok Q (enterJob >>= f).run s := by
  refine Returns.bindExcept (Returns.liftBind (returns_access ?_))
  by_cases hactive : s.jobsActive % 2 ^ 64 ≥ MAX_OUTSTANDING_ASYNC_JOBS
  · simp only [hactive, if_true]
    exact hfull _
  · simp only [hactive, if_false]
    exact Returns.liftBind (returns_access henter)

end Owned

section Handlers

variable {gw : Gateway} {auth : Option AuthContext} {t : TenantId} {s : AppState} {ok : Outside → Prop}

theorem createFunction_keepsTo (payload : Payload CreateFunctionRequest) :
    KeepsTo (FreshId s) t s (createFunction gw auth t payload) := by
  refine .checkBind fun _ _ => .checkBind fun req _ => .checkBind fun _ _ => .checkBind fun bytes _ =>
    .checkBind fun _ _ => ?_
  refine Returns.liftBind (returns_consult fun o ho => ?_)
  exact Respects.insert ho _

variable (id : Uuid)

theorem deleteFunction_keepsTo : KeepsTo ok t s (deleteFunction auth t id) := by
  refine .checkBind fun _ _ => .owned fun rec hrec howner => ?_
  -- alone, the record is still there when it is removed
  refine Returns.liftBind (returns_access ?_)
  simp only [hrec]
  exact Respects.erase hrec howner

/-- The bytes of the record that was looked up, under the id it was looked up by. -/
theorem ownModule_of_lookup {id : Uuid} {rec : FunctionRecord} (hrec : s.functions.lookup id = some rec)
    (howner : rec.tenantId = t) : OwnModule t s id rec.wasmBytes :=
  ⟨rec, hrec, howner, rfl⟩

theorem invokeFunction_keepsTo (payload : Payload InvokeRequest) :
    KeepsTo ok t s (invokeFunction gw auth t id payload) := by
  refine .checkBind fun _ _ => .checkBind fun req _ => .checkBind fun args _ => .owned fun rec hrec howner => ?_
  refine Returns.liftBind (returns_consult fun o _ => ?_)
  have hdone : Respects t s (s.log (.executed ⟨t, id, rec.wasmBytes, req.exportOverride, args, []⟩)) :=
    .of_log rfl rfl ⟨rfl, ownModule_of_lookup hrec howner⟩
  exact Returns.checkBind (fun _ _ => hdone) fun _ _ => hdone

theorem invokeFunctionAsync_keepsTo (payload : Payload InvokeRequest) :
    KeepsTo ok t s (invokeFunctionAsync gw auth t id payload) := by
  refine .checkBind fun _ _ => .checkBind fun req _ => .checkBind fun args _ => .owned fun rec hrec howner => ?_
  refine returns_enterJob (fun _ => .refl t s) ?_
  refine Returns.liftBind (returns_consult fun o _ => ?_)
  refine Returns.liftBind (returns_access ?_)
  refine Returns.liftBind (returns_access ?_)
  have hown : Effect.OwnedBy t s (.started ⟨o.uuid, t, id, rec.wasmBytes, req.exportOverride, args, []⟩) :=
    ⟨rfl, ownModule_of_lookup hrec howner⟩
  exact Respects.of_log rfl rfl hown

theorem invokeFunctionStream_keepsTo (wantsSse : Bool) (payload : Payload InvokeRequest) :
    KeepsTo ok t s (invokeFunctionStream gw auth t id wantsSse payload) := by
  refine .checkBind fun _ _ => .owned fun rec hrec howner => .checkBind fun req _ => .checkBind fun args _ => ?_
  refine returns_enterJob (fun _ => .refl t s) ?_
  refine Returns.liftBind (returns_consult fun o _ => ?_)
  refine Returns.liftBind (returns_access ?_)
  exact Respects.of_log rfl rfl ⟨rfl, ownModule_of_lookup hrec howner⟩

theorem getJob_keepsTo : KeepsTo ok t s (getJob auth t id) := by
  refine .checkBind fun _ _ => .owned fun rec hrec howner => ?_
  refine Returns.liftBind (returns_access ?_)
  simp only [hrec]
  exact Respects.of_log rfl rfl ⟨hrec, howner⟩

theorem snapshotSave_keepsTo (payload : Payload SnapshotSaveRequest) :
    KeepsTo ok t s (snapshotSave gw auth t payload) := by
  refine .checkBind fun _ _ => .checkBind fun key _ => .checkBind fun req _ => .owned fun rec hrec howner => ?_
  refine Returns.liftBind (returns_access ?_)
  have hdone : Respects t s (s.log (.captured req.functionId rec.wasmBytes)) :=
    .of_log rfl rfl (ownModule_of_lookup hrec howner)
  split
  · exact hdone
  · exact hdone

theorem snapshotRestore_keepsTo (payload : Payload SnapshotRestoreRequest) :
    KeepsTo ok t s (snapshotRestore gw auth t payload) := by
  refine .checkBind fun _ _ => .checkBind fun key _ => .checkBind fun req _ => .checkBind fun blob _ => ?_
  split
  · exact Respects.refl t s
  · rename_i snapshot _
    by_cases hown : snapshot.tenantId = t
    · simp only [hown, ne_eq, not_true_eq_false, if_false]
      exact Respects.refl t s
    · simp only [ne_eq, hown, not_false_eq_true, if_true]
      exact Respects.refl t s

theorem runTranslated_keepsTo (tr : TranslatedRequest) (model : String) (object : OpenAiObject) :
    KeepsTo ok t s (runTranslated gw t tr model object) := by
  refine .owned fun rec hrec howner => ?_
  refine Returns.liftBind (returns_consult fun o _ => ?_)
  have hdone : Respects t s (s.log (.executed
      ⟨t, tr.functionId, rec.wasmBytes, some "_start", tr.args, tr.prompt.toUTF8.toList⟩)) :=
    .of_log rfl rfl ⟨rfl, ownModule_of_lookup hrec howner⟩
  split
  · exact hdone
  · exact hdone

theorem openAiHandler_keepsTo {ρ : Type} (translate : ρ → Except OpenAiError TranslatedRequest)
    (model : ρ → String) (object : OpenAiObject) (payload : Payload ρ) :
    KeepsTo ok t s (openAiHandler gw auth t translate model object payload) :=
  .checkBind fun _ _ => .checkBind fun req _ => .checkBind fun tr _ => runTranslated_keepsTo tr (model req) object

theorem handle_respects (gw : Gateway) (auth : Option AuthContext) (tenant : Option TenantId) (req : Request)
    (s : AppState) :
    Returns (FreshId s) (fun _ s' => Respects (tenant.getD 0) s s') (req.handle gw auth tenant) s := by
  cases req with
  | createFunction payload => exact (createFunction_keepsTo payload).respond _
  | deleteFunction id => exact (deleteFunction_keepsTo id).respond _
  | invokeFunction id payload => exact (invokeFunction_keepsTo id payload).respond _
  | invokeFunctionAsync id payload => exact (invokeFunctionAsync_keepsTo id payload).respond _
  | invokeFunctionStream id wantsSse payload =>
    exact (invokeFunctionStream_keepsTo id wantsSse payload).respond _
  | getJob id => exact (getJob_keepsTo id).respond _
  | snapshotSave payload => exact (snapshotSave_keepsTo payload).respond _
  | snapshotRestore payload => exact (snapshotRestore_keepsTo payload).respond _
  | completions payload | chatCompletions payload => exact (openAiHandler_keepsTo _ _ _ payload).respond _

end Handlers

/-! ## The task of a job -/

@[simp] theorem JobRecord.finish_tenantId (rec : JobRecord) (outcome : Except ApiError Json) :
    (rec.finish outcome).tenantId = rec.tenantId := by
  cases outcome <;> rfl

/-- Who owns the job with this id. -/
def AppState.jobOwner (s : AppState) (id : Uuid) : Option TenantId :=
  (s.jobs.lookup id).map JobRecord.tenantId

theorem jobOwner_insert_finish {s : AppState} {jobId : Uuid} {rec : JobRecord}
    (hrec : s.jobs.lookup jobId = some rec) (outcome : Except ApiError Json) (id : Uuid) :
    ({ s with jobs := s.jobs.insert jobId (rec.finish outcome) } : AppState).jobOwner id = s.jobOwner id := by
  by_cases hid : id = jobId
  · subst hid
    simp [AppState.jobOwner, hrec]
  · simp [AppState.jobOwner, AList.lookup_insert_ne hid]

/-- The task runs the call it was started with and writes its outcome into its own record. -/
theorem JobTask.run_returns (task : JobTask) (s : AppState) :
    Returns (fun _ => True)
      (fun _ s' => s'.effects = s.effects ++ [.executed task.call] ∧ s'.functions = s.functions ∧
        ∀ id, s'.jobOwner id = s.jobOwner id) task.run s := by
  refine Returns.bind (returns_consult fun o _ => ?_)
  refine Returns.bind (returns_access ?_)
  refine returns_access ?_
  cases hrec : (s.log (.executed task.call)).jobs.lookup task.jobId with
  | none =>
    simp only [hrec]
    exact ⟨rfl, rfl, fun _ => rfl⟩
  | some rec =>
    simp only [hrec]
    exact ⟨rfl, rfl, fun id => jobOwner_insert_finish hrec _ id⟩

/-! ## Isolation -/

/-- Run alone, the handler gives this response and leaves the state as it is. -/
def Replies (p : Prog Outside AppState HttpResponse) (s : AppState) (response : HttpResponse) : Prop :=
  Returns (fun _ => True) (fun out s' => out = response ∧ s' = s) p s

/-- Equal, or both with a record of a tenant other than `t`. -/
def SameBut {α : Type} (owner : α → TenantId) (t : TenantId) (o o' : Option α) : Prop :=
  o = o' ∨ ∃ rec rec', o = some rec ∧ o' = some rec' ∧ owner rec ≠ t ∧ owner rec' ≠ t

/-- The two states differ in the records of tenants other than `t` only. -/
structure AgreeFor (t : TenantId) (s s' : AppState) : Prop where
  functions : ∀ id, SameBut FunctionRecord.tenantId t (s.functions.lookup id) (s'.functions.lookup id)
  jobs : ∀ id, SameBut JobRecord.tenantId t (s.jobs.lookup id) (s'.jobs.lookup id)

theorem SameBut.foreign {α : Type} {owner : α → TenantId} {o o' : Option α} (h : SameBut owner t o o') {rec : α}
    (hrec : o = some rec) (howner : owner rec ≠ t) : ∃ rec', o' = some rec' ∧ owner rec' ≠ t := by
  rcases h with rfl | ⟨_, rec', _, hrec', _, howner'⟩
  · exact ⟨rec, hrec, howner⟩
  · exact ⟨rec', hrec', howner'⟩

theorem Foreign.of_agreeFor {gw : Gateway} {req : Request} {s s' : AppState}
    (h : Foreign gw t req s) (hagree : AgreeFor t s s') : Foreign gw t req s' := by
  rcases h with ⟨id, rec, hid, hrec, howner⟩ | ⟨id, rec, hid, hrec, howner⟩
  · obtain ⟨rec', hrec', howner'⟩ := (hagree.functions id).foreign hrec howner
    exact .inl ⟨id, rec', hid, hrec', howner'⟩
  · obtain ⟨rec', hrec', howner'⟩ := (hagree.jobs id).foreign hrec howner
    exact .inr ⟨id, rec', hid, hrec', howner'⟩

/-- What the client reads from a job is a record of the tenant's own. -/
theorem getJob_returns (gw : Gateway) {tenant : Option TenantId} (h : InScope auth (tenant.getD 0))
    (id : Uuid) (s : AppState) :
    Returns (fun _ => True)
      (fun out _ => ∀ body, out = .json ⟨200, body⟩ →
        ∃ rec, s.jobs.lookup id = some rec ∧ rec.tenantId = tenant.getD 0 ∧ body = rec.toJson)
      ((Request.getJob id).handle gw auth tenant) s := by
  refine Returns.bind (Returns.checkBind (fun _ _ => ?_) fun e he => ?_)
  · -- neither of the errors has the status of a success
    refine returns_owned (fun _ body hbody => nomatch hbody) (fun _ _ _ body hbody => nomatch hbody) ?_
    intro rec hrec howner
    refine Returns.liftBind (returns_access ?_)
    simp only [hrec]
    intro body hbody
    cases hbody
    exact ⟨rec, rfl, howner, rfl⟩
  · rw [requireAuthorize_of_inScope h] at he
    cases he

structure TenantIsolation (gw : Gateway) (auth : Option AuthContext) (tenant : Option TenantId) : Prop where
  /-- Without the scope there is one response, and nothing changes. -/
  refused : ¬ InScope auth (tenant.getD 0) → ∀ req, ∃ response, ∀ s,
    Replies (Request.handle gw auth tenant req) s response
  /-- With it, what is executed, captured, removed or returned is the tenant's own. -/
  own : InScope auth (tenant.getD 0) → ∀ req s,
    Returns (FreshId s) (fun _ s' => Respects (tenant.getD 0) s s') (Request.handle gw auth tenant req) s
  job : InScope auth (tenant.getD 0) → ∀ id s, Returns (fun _ => True)
    (fun out _ => ∀ body, out = .json ⟨200, body⟩ →
      ∃ rec, s.jobs.lookup id = some rec ∧ rec.tenantId = tenant.getD 0 ∧ body = rec.toJson)
    ((Request.getJob id).handle gw auth tenant) s
  /-- A started task executes its call, and nobody gets a job by it. -/
  task : ∀ (task : JobTask) s, Returns (fun _ => True)
    (fun _ s' => s'.effects = s.effects ++ [.executed task.call] ∧ s'.functions = s.functions ∧
      ∀ id, s'.jobOwner id = s.jobOwner id) task.run s
  /-- About a record of somebody else there is nothing to learn. -/
  foreign : InScope auth (tenant.getD 0) → ∀ req s s', AgreeFor (tenant.getD 0) s s' →
    Foreign gw (tenant.getD 0) req s → ∃ response,
      Replies (Request.handle gw auth tenant req) s response ∧
        Replies (Request.handle gw auth tenant req) s' response

/-- Every handler keeps tenants apart, whatever the configuration, the credentials and the state are. -/
theorem tenant_isolation (gw : Gateway) (auth : Option AuthContext) (tenant : Option TenantId) :
    TenantIsolation gw auth tenant where
  refused := by
    intro hscope req
    obtain ⟨response, hresponse⟩ := handle_refused gw hscope req
    refine ⟨response, fun s => ?_⟩
    rw [hresponse]
    exact ⟨rfl, rfl⟩
  own := fun _ req s => handle_respects gw auth tenant req s
  job := fun hscope id s => getJob_returns gw hscope id s
  task := JobTask.run_returns
  foreign := by
    intro _ req s s' hagree hforeign
    obtain ⟨response, hresponse⟩ := handle_foreign gw auth tenant req
    exact ⟨response, hresponse s hforeign, hresponse s' (hforeign.of_agreeFor hagree)⟩

end TensorWasm.Api
