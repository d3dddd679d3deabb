import TensorWasm.Api.Invoke
import TensorWasm.Api.Requests

/-!
# The gateway's handlers

The handlers of `tensor-wasm-api` for functions, jobs, snapshots and the OpenAI routes. A handler is a program
on the shared state: every access to a registry or to the gauge of active jobs is one action, and so is all
that an invocation asks of the executor. Fresh ids, the clock and the executor's answers come from the
outside.

The registries are association lists. Beside them the state keeps a record of what was done with the bytes of
a function and with a job: no handler reads it.

Left out are the metrics other than the gauge, the tasks a codec is moved to when its input is large, panics,
and the header that asks for server-sent events, of which the handler is told the verdict.
-/

namespace TensorWasm.Api

open Lib
open ApiError (intoResponse)

/-! ## State -/

structure FunctionRecord where
  id : Uuid
  tenantId : TenantId
  name : String
  wasmBytes : Bytes
  createdUnixMs : Nat

/-- What the executor is asked to run. -/
structure Call where
  tenant : TenantId
  functionId : Uuid
  wasmBytes : Bytes
  exportOverride : Option String
  args : List WasmArg
  input : Bytes

/-- The task `invoke_function_async` starts. -/
structure JobTask where
  jobId : Uuid
  call : Call

inductive Effect
  | executed (call : Call)
  | started (task : JobTask)
  | captured (functionId : Uuid) (wasmBytes : Bytes)
  | removed (functionId : Uuid) (rec : FunctionRecord)
  | returned (jobId : Uuid) (rec : JobRecord)

structure AppState where
  functions : AList (fun _ : Uuid => FunctionRecord)
  jobs : AList (fun _ : Uuid => JobRecord)
  jobsActive : Int
  effects : List Effect

def AppState.log (s : AppState) (e : Effect) : AppState := { s with effects := s.effects ++ [e] }

/-- What the outside decides at an action. -/
structure Outside where
  uuid : Uuid
  nowUnixMs : Nat
  nowUnixSecs : Nat
  answers : Call → Answers
  chunks : Call → List Bytes

/-- What `SnapshotReader::restore` recovers. -/
structure Snapshot where
  tenantId : TenantId
  instanceId : Executor.InstanceId
  totalUncompressedBytes : Nat
  version : Nat

/-- The configuration, and the libraries the handlers call. -/
structure Gateway where
  snapshotHmacKey : Option Bytes
  openaiModelMap : ModelMap
  base64Decode : String → Option Bytes
  base64Encode : Bytes → String
  renderJson : Json → String
  fromUtf8Lossy : Bytes → String
  validateWasm : Bytes → Bool
  /-- `SnapshotWriter` with the key, for a tenant, an instance and its memory. -/
  capture : Bytes → TenantId → Executor.InstanceId → Bytes → Option Bytes
  /-- `SnapshotReader` with the key, for a blob that has to be signed. -/
  restore : Bytes → Bytes → Option Snapshot

inductive Frame
  | event (e : Event)
  | bytes (chunk : Bytes)

inductive HttpResponse
  | json (r : Response)
  | noContent
  | frames (contentType : String) (frames : List Frame)

/-- A part of a handler: it may end the request with an error. -/
abbrev Session (δ : Type) := ExceptT δ (Prog Outside AppState)

def respond {δ : Type} (intoResponse : δ → Response) (h : Session δ HttpResponse) :
    Prog Outside AppState HttpResponse := do
  match ← h.run with
  | .ok r => pure r
  | .error e => pure (.json (intoResponse e))

/-! ## Shared steps -/

/-- Look a record up and compare its owner with the tenant of the request. -/
def owned {α δ : Type} (lookup : AppState → Option α) (owner : α → TenantId) (tenant : TenantId)
    (missing foreign : δ) : Session δ α := do
  match ← (Prog.read lookup : Prog Outside AppState (Option α)) with
  | none => throw missing
  | some rec => if owner rec ≠ tenant then throw foreign else return rec

def functionNotFound (id : Uuid) : ApiError :=
  let id := id.display
  .notFound s!"function {id} not found"

def functionForeign : ApiError := .forbidden "tenant_scope_denied" "function belongs to a different tenant"

def ownedFunction (id : Uuid) (tenant : TenantId) : Session ApiError FunctionRecord :=
  owned (fun s => s.functions.lookup id) FunctionRecord.tenantId tenant (functionNotFound id) functionForeign

/-- Hand a module to the executor and wait for what it answers. -/
def execute (call : Call) : Prog Outside AppState Outside :=
  Prog.consult fun o s => (o, s.log (.executed call))

def MAX_OUTSTANDING_ASYNC_JOBS : Nat := 256

def MAX_JOB_RECORDS : Nat := 4096

/-- The ceiling on active jobs, and the guard that counts one more. The gauge is read as a `usize`. -/
def enterJob : Session ApiError Unit := do
  let active ← (Prog.read AppState.jobsActive : Prog Outside AppState Int)
  if active % 2 ^ 64 ≥ MAX_OUTSTANDING_ASYNC_JOBS then
    throw (.serviceUnavailable "capacity_exhausted" "outstanding async-job capacity exhausted; retry later")
  (Prog.change fun s => { s with jobsActive := s.jobsActive + 1 } : Prog Outside AppState Unit)

def leaveJob : Prog Outside AppState Unit := Prog.change fun s => { s with jobsActive := s.jobsActive - 1 }

/-- Finished records go first, and the oldest of them; the order of records of one age is not fixed by the
source. -/
def evictJobsIfOverCap (jobs : AList (fun _ : Uuid => JobRecord)) : AList (fun _ : Uuid => JobRecord) :=
  let len := jobs.entries.length
  if len ≤ MAX_JOB_RECORDS then jobs
  else
    let overflow := len - MAX_JOB_RECORDS
    let entries := jobs.entries.map fun e => (e.2.createdUnixMs, e.1, e.2.status != .pending)
    let sorted := entries.mergeSort fun a b => (a.2.2 && !b.2.2) || (a.2.2 == b.2.2 && a.1 ≤ b.1)
    (sorted.take overflow).foldl (fun jobs e => jobs.erase e.2.1) jobs

section Handlers

variable (gw : Gateway) (auth : Option AuthContext) (tenant : TenantId)

/-! ## Functions -/

def createFunction (payload : Payload CreateFunctionRequest) : Session ApiError HttpResponse := do
  requireAuthorize auth tenant
  let req ← payload.json
  validateFunctionName req.name
  let bytes ← decodeWasmB64 gw.base64Decode req.wasmB64
  checkModule gw.validateWasm bytes
  let id ← (Prog.consult fun o s =>
    let record : FunctionRecord := ⟨o.uuid, tenant, req.name, bytes, o.nowUnixMs⟩
    (o.uuid, { s with functions := s.functions.insert o.uuid record }) : Prog Outside AppState Uuid)
  return .json ⟨200, .obj [("id", .str id.display)]⟩

def deleteFunction (id : Uuid) : Session ApiError HttpResponse := do
  requireAuthorize auth tenant
  let _ ← ownedFunction id tenant
  let removed ← (Prog.access fun s =>
    match s.functions.lookup id with
    | some rec => (true, { s with functions := s.functions.erase id }.log (.removed id rec))
    | none => (false, s) : Prog Outside AppState Bool)
  if removed then return .noContent else throw (functionNotFound id)

def invokeFunction (id : Uuid) (payload : Payload InvokeRequest) : Session ApiError HttpResponse := do
  requireAuthorize auth tenant
  let req ← readInvokeRequest payload
  let args ← parseInvokeArgs gw.renderJson req.args
  let fn ← ownedFunction id tenant
  let call : Call := ⟨tenant, id, fn.wasmBytes, req.exportOverride, args, []⟩
  let o ← execute call
  let value ← runInvoke id req.exportOverride (o.answers call)
  return .json ⟨200, value⟩

def invokeFunctionAsync (id : Uuid) (payload : Payload InvokeRequest) : Session ApiError HttpResponse := do
  requireAuthorize auth tenant
  let req ← readInvokeRequest payload
  let args ← parseInvokeArgs gw.renderJson req.args
  let fn ← ownedFunction id tenant
  enterJob
  let jobId ← (Prog.consult fun o s =>
    let record : JobRecord := ⟨o.uuid, id, tenant, .pending, none, o.nowUnixMs⟩
    (o.uuid, { s with jobs := s.jobs.insert o.uuid record }) : Prog Outside AppState Uuid)
  (Prog.change fun s => { s with jobs := evictJobsIfOverCap s.jobs } : Prog Outside AppState Unit)
  let task : JobTask := ⟨jobId, tenant, id, fn.wasmBytes, req.exportOverride, args, []⟩
  (Prog.change fun s => s.log (.started task) : Prog Outside AppState Unit)
  return .json ⟨202, .obj [("job_id", .str jobId.display)]⟩

/-- The task itself. Its record may have been evicted in the meantime. -/
def JobTask.run (task : JobTask) : Prog Outside AppState Unit := do
  let o ← execute task.call
  let outcome := runInvoke task.call.functionId task.call.exportOverride (o.answers task.call)
  Prog.change fun s =>
    match s.jobs.lookup task.jobId with
    | some rec => { s with jobs := s.jobs.insert task.jobId (rec.finish outcome) }
    | none => s
  leaveJob

def SSE_MIME : String := "text/event-stream"

def CHUNKED_MIME : String := "application/octet-stream"

/-- The chunks in the order they were sent, and the terminal frame. -/
def streamBody (wantsSse : Bool) (chunks : List Bytes) (terminal : Event) : HttpResponse :=
  if wantsSse then
    .frames SSE_MIME (chunks.map (fun c => .event ⟨some "chunk", .str (gw.fromUtf8Lossy c)⟩)
      ++ [.event terminal])
  else .frames CHUNKED_MIME (chunks.map .bytes ++ [.event terminal])

def invokeFunctionStream (id : Uuid) (wantsSse : Bool) (payload : Payload InvokeRequest) :
    Session ApiError HttpResponse := do
  requireAuthorize auth tenant
  -- the owner is checked before the body is looked at
  let fn ← ownedFunction id tenant
  let req ← readInvokeRequest payload
  let args ← parseInvokeArgs gw.renderJson req.args
  enterJob
  let call : Call := ⟨tenant, id, fn.wasmBytes, req.exportOverride, args, []⟩
  let o ← execute call
  leaveJob
  let outcome := (o.answers call).outcome req.exportOverride
  return streamBody gw wantsSse (o.chunks call) (streamTerminalEvent (streamTerminal outcome))

/-! ## Jobs and snapshots -/

def getJob (id : Uuid) : Session ApiError HttpResponse := do
  requireAuthorize auth tenant
  let missing : ApiError := .notFound (let id := id.display; s!"job {id} not found")
  let _ ← owned (fun s => s.jobs.lookup id) JobRecord.tenantId tenant missing
    (.forbidden "tenant_scope_denied" "job belongs to a different tenant")
  -- the record is fetched a second time, it may have been evicted
  let rec? ← (Prog.access fun s =>
    match s.jobs.lookup id with
    | some rec => (some rec, s.log (.returned id rec))
    | none => (none, s) : Prog Outside AppState (Option JobRecord))
  match rec? with
  | some rec => return .json ⟨200, rec.toJson⟩
  | none => throw missing

def snapshotKey (route : String) : Except ApiError Bytes :=
  match gw.snapshotHmacKey with
  | some key => .ok key
  | none => .error <| .serviceUnavailable "snapshot_signing_not_configured" <|
    "snapshot signing key is not configured; set TENSOR_WASM_API_SNAPSHOT_HMAC_KEY to enable " ++ route

def snapshotSave (payload : Payload SnapshotSaveRequest) : Session ApiError HttpResponse := do
  requireAuthorize auth tenant
  let key ← snapshotKey gw "/snapshot/save"
  let req ← payload.json
  let fn ← ownedFunction req.functionId tenant
  let instanceId := req.functionId.toNat % 2 ^ 64
  (Prog.change fun s => s.log (.captured req.functionId fn.wasmBytes) : Prog Outside AppState Unit)
  match gw.capture key tenant instanceId fn.wasmBytes with
  | none => throw (.internal "snapshot capture failed")
  | some blob => return .json ⟨200, .obj [("function_id", .str req.functionId.display),
      ("snapshot_b64", .str (gw.base64Encode blob)), ("signed", .bool true)]⟩

def snapshotRestore (payload : Payload SnapshotRestoreRequest) : Session ApiError HttpResponse := do
  requireAuthorize auth tenant
  let key ← snapshotKey gw "/snapshot/restore"
  let req ← payload.json
  let blob ← decodeWasmB64 gw.base64Decode req.snapshotB64
  match gw.restore key blob with
  | none => throw (.forbidden "snapshot_signature_invalid"
      "snapshot signature verification failed or blob is malformed")
  | some snapshot =>
    if snapshot.tenantId ≠ tenant then
      throw (.forbidden "tenant_scope_denied" "snapshot was captured for a different tenant")
    let instanceId := snapshot.instanceId
    return .json ⟨200, .obj [("tenant_id", .nat snapshot.tenantId.toNat),
      ("instance_id", .str s!"I#{instanceId}"),
      ("total_uncompressed_bytes", .nat snapshot.totalUncompressedBytes),
      ("version", .nat snapshot.version)]⟩

/-! ## The OpenAI routes -/

def makeChunkEvent (h : OpenAiHeader) (chunk : Bytes) : Event :=
  let text := gw.fromUtf8Lossy chunk
  let choice : Json := match h.object with
    | .textCompletion => .obj [("text", .str text), ("index", .nat 0), ("finish_reason", .null),
        ("logprobs", .null)]
    | .chatCompletion => .obj [("index", .nat 0), ("delta", .obj [("content", .str text)]),
        ("finish_reason", .null)]
  ⟨none, .obj (h.fields h.object.chunkObjectKind ++ [("choices", .arr [choice])])⟩

def runTranslated (translated : TranslatedRequest) (model : String) (object : OpenAiObject) :
    Session Response HttpResponse := do
  let shown := translated.functionId.display
  let fn ← owned (fun s => s.functions.lookup translated.functionId) FunctionRecord.tenantId tenant
    (OpenAiError.modelNotFound s!"model maps to function {shown} which is no longer deployed").intoResponse
    (OpenAiError.tenantScopeDenied "model maps to a function owned by a different tenant").intoResponse
  let input := translated.prompt.toUTF8.toList
  let call : Call := ⟨tenant, translated.functionId, fn.wasmBytes, some "_start", translated.args, input⟩
  let o ← execute call
  let header : OpenAiHeader := ⟨object, o.uuid, o.nowUnixSecs, model⟩
  if translated.stream then
    let err := match (o.answers call).start with
      | .ok _ => none
      | .error e => some e
    return .frames SSE_MIME ((o.chunks call).map (fun c => .event (makeChunkEvent gw header c))
      ++ [.event (makeTerminalEvent header err), .event ⟨none, .str "[DONE]"⟩])
  else
    return .json (runBuffered header gw.fromUtf8Lossy translated.prompt (o.chunks call) (o.answers call))

/-- `completions_handler` and `chat_completions_handler`, which differ in the request and its translation. -/
def openAiHandler {ρ : Type} (translate : ρ → Except OpenAiError TranslatedRequest) (model : ρ → String)
    (object : OpenAiObject) (payload : Payload ρ) : Session Response HttpResponse := do
  (requireAuthorize auth tenant).mapError intoResponse
  let req ← payload.mapError fun rej => (OpenAiError.invalidRequest rej.bodyText none).intoResponse
  let translated ← (translate req).mapError OpenAiError.intoResponse
  runTranslated gw tenant translated (model req) object

def completionsHandler (payload : Payload CompletionsRequest) : Session Response HttpResponse :=
  openAiHandler gw auth tenant (translateCompletionsRequest gw.openaiModelMap) CompletionsRequest.model
    .textCompletion payload

def chatCompletionsHandler (payload : Payload ChatCompletionsRequest) : Session Response HttpResponse :=
  openAiHandler gw auth tenant (translateChatCompletionsRequest gw.openaiModelMap)
    ChatCompletionsRequest.model .chatCompletion payload

end Handlers

/-! ## Requests -/

inductive Request
  | createFunction (payload : Payload CreateFunctionRequest)
  | deleteFunction (id : Uuid)
  | invokeFunction (id : Uuid) (payload : Payload InvokeRequest)
  | invokeFunctionAsync (id : Uuid) (payload : Payload InvokeRequest)
  | invokeFunctionStream (id : Uuid) (wantsSse : Bool) (payload : Payload InvokeRequest)
  | getJob (id : Uuid)
  | snapshotSave (payload : Payload SnapshotSaveRequest)
  | snapshotRestore (payload : Payload SnapshotRestoreRequest)
  | completions (payload : Payload CompletionsRequest)
  | chatCompletions (payload : Payload ChatCompletionsRequest)

/-- A request without a tenant is one of tenant 0. -/
def Request.handle (gw : Gateway) (auth : Option AuthContext) (tenant : Option TenantId) :
    Request → Prog Outside AppState HttpResponse
  | createFunction payload =>
    respond intoResponse (Api.createFunction gw auth (tenant.getD 0) payload)
  | deleteFunction id => respond intoResponse (Api.deleteFunction auth (tenant.getD 0) id)
  | invokeFunction id payload =>
    respond intoResponse (Api.invokeFunction gw auth (tenant.getD 0) id payload)
  | invokeFunctionAsync id payload =>
    respond intoResponse (Api.invokeFunctionAsync gw auth (tenant.getD 0) id payload)
  | invokeFunctionStream id wantsSse payload =>
    respond intoResponse (Api.invokeFunctionStream gw auth (tenant.getD 0) id wantsSse payload)
  | getJob id => respond intoResponse (Api.getJob auth (tenant.getD 0) id)
  | snapshotSave payload =>
    respond intoResponse (Api.snapshotSave gw auth (tenant.getD 0) payload)
  | snapshotRestore payload =>
    respond intoResponse (Api.snapshotRestore gw auth (tenant.getD 0) payload)
  | completions payload => respond id (completionsHandler gw auth (tenant.getD 0) payload)
  | chatCompletions payload => respond id (chatCompletionsHandler gw auth (tenant.getD 0) payload)

end TensorWasm.Api
