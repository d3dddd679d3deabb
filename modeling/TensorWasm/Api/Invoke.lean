import TensorWasm.Api.Response
import TensorWasm.Exec.Executor

/-!
# Invocations and how they end

The five ways a client gets to see the end of an invocation: the answer of `invoke`, the job record
`invoke-async` leaves, the last frame of `invoke-stream`, and the buffered and the streamed OpenAI response.
The executor is outside of this module: an invocation is given what it answers. How the frames before the
last one are written is left out, and so is the server's own log.
-/

namespace TensorWasm.Executor

namespace ExecError

/-- `Display`, as the `#[error]` attributes give it. -/
def display : ExecError → String
  | wasmtime _ => "wasmtime error"
  | notFound id => s!"no such instance: I#{id}"
  | missingExport name => s!"instance has no export `{name}`"
  | timeout id elapsedMs deadlineMs =>
    s!"instance I#{id} exceeded deadline (elapsed {elapsedMs} ms, deadline {deadlineMs} ms)"
  | moduleMemoryTooLarge requestedBytes limitBytes =>
    s!"module-declared linear memory {requestedBytes} bytes exceeds engine cap {limitBytes} bytes"
  | capacityExhausted active limit => s!"instance capacity exhausted: {active} active, limit {limit}"
  | tenantCapacityExhausted tenant active limit =>
    s!"tenant T#{tenant} instance capacity exhausted: {active} active, limit {limit}"
  | moduleTooLarge len max => s!"wasm module byte length {len} exceeds cap {max}"
  | epochTickerNotRunning =>
    "epoch ticker not running — refusing spawn with deadline; call `engine.spawn_epoch_ticker()` first"
  | unsupportedReturnType kind => s!"export returned an unsupported value type: {kind}"

inductive Variant
  | wasmtime
  | notFound
  | missingExport
  | timeout
  | moduleMemoryTooLarge
  | capacityExhausted
  | tenantCapacityExhausted
  | moduleTooLarge
  | epochTickerNotRunning
  | unsupportedReturnType

def variant : ExecError → Variant
  | wasmtime _ => .wasmtime
  | notFound _ => .notFound
  | missingExport _ => .missingExport
  | timeout _ _ _ => .timeout
  | moduleMemoryTooLarge _ _ => .moduleMemoryTooLarge
  | capacityExhausted _ _ => .capacityExhausted
  | tenantCapacityExhausted _ _ _ => .tenantCapacityExhausted
  | moduleTooLarge _ _ => .moduleTooLarge
  | epochTickerNotRunning => .epochTickerNotRunning
  | unsupportedReturnType _ => .unsupportedReturnType

end ExecError

end TensorWasm.Executor

namespace TensorWasm.Api

open Executor (ExecError)

def sanitisedExecErrorMessage : ExecError → String
  | .notFound _ => "function not found"
  | .missingExport _ => "requested export not found in module"
  | .timeout _ _ _ => "invocation deadline exceeded"
  | .wasmtime _ => "internal execution error"
  | .moduleMemoryTooLarge _ _ => "module declares memory above per-instance cap"
  | .capacityExhausted _ _ => "engine instance capacity exhausted; retry later"
  | .tenantCapacityExhausted _ _ _ => "tenant instance quota exhausted; reduce concurrency or retry later"
  | .moduleTooLarge _ _ => "module bytes above per-tenant cap"
  | .epochTickerNotRunning => "engine deadline ticker not running"
  | .unsupportedReturnType _ => "export returned an unsupported value type"

/-- `From<ExecError>`. -/
def ApiError.ofExecError (err : ExecError) : ApiError :=
  let (status, kind) := match err with
    | .notFound _ => (404, "instance_not_found")
    | .missingExport _ => (400, "missing_export")
    | .timeout _ _ _ => (504, "invoke_timeout")
    | .wasmtime _ => (500, "wasmtime")
    | .moduleMemoryTooLarge _ _ => (413, "module_memory_too_large")
    | .capacityExhausted _ _ => (503, "capacity_exhausted")
    | .tenantCapacityExhausted _ _ _ => (429, "tenant_capacity_exhausted")
    | .moduleTooLarge _ _ => (413, "module_too_large")
    | .epochTickerNotRunning => (500, "epoch_ticker_not_running")
    | .unsupportedReturnType _ => (400, "unsupported_return_type")
  ⟨status, kind, sanitisedExecErrorMessage err⟩

def execErrorCode : ExecError → String
  | .timeout _ _ _ => "deadline_elapsed"
  | .capacityExhausted _ _ => "capacity_exhausted"
  | .tenantCapacityExhausted _ _ _ => "tenant_capacity_exhausted"
  | .moduleMemoryTooLarge _ _ => "module_memory_too_large"
  | .moduleTooLarge _ _ => "module_too_large"
  | .missingExport _ => "missing_export"
  | .epochTickerNotRunning => "epoch_ticker_not_running"
  | .notFound _ => "instance_not_found"
  | .wasmtime _ => "wasm_error"
  | .unsupportedReturnType _ => "unsupported_return_type"

def mapExecErrorToOpenai (err : ExecError) : OpenAiError := .serverError err.display (execErrorCode err)

/-! ## Asking the executor -/

/-- What the executor answers during one invocation: to the request for an instance, to the calls of its
exports by name, and to the request for a second instance. -/
structure Answers where
  spawn : Except ExecError Unit
  call : String → Except ExecError Json
  respawn : Except ExecError Unit

/-- The export asked for, or else `_start`, or else `main` of a second instance. -/
def Answers.outcome (a : Answers) (exportOverride : Option String) : Except ExecError Json :=
  match a.spawn with
  | .error e => .error e
  | .ok () =>
    match exportOverride with
    | some name => a.call name
    | none =>
      match a.call "_start" with
      | .error (.missingExport _) =>
        match a.respawn with
        | .error e => .error e
        | .ok () => a.call "main"
      | r => r

/-- The OpenAI routes call `_start` and nothing else. -/
def Answers.start (a : Answers) : Except ExecError Json :=
  match a.spawn with
  | .error e => .error e
  | .ok () => a.call "_start"

def runInvoke (functionId : Uuid) (exportOverride : Option String) (a : Answers) : Except ApiError Json :=
  match a.outcome exportOverride with
  | .error e => .error (.ofExecError e)
  | .ok result =>
    -- a module that returns nothing is reported as "ok"
    let payload := match result with
      | .arr [] => .str "ok"
      | _ => result
    .ok (.obj [("function_id", .str functionId.display), ("result", payload)])

/-! ## Jobs -/

inductive JobStatus
  | pending
  | completed
  | failed
  deriving DecidableEq

def JobStatus.display : JobStatus → String
  | pending => "pending"
  | completed => "completed"
  | failed => "failed"

structure JobRecord where
  id : Uuid
  functionId : Uuid
  tenantId : Executor.TenantId
  status : JobStatus
  result : Option Json
  createdUnixMs : Nat

/-- What the task of a job does with its record when it ends. -/
def JobRecord.finish (rec : JobRecord) : Except ApiError Json → JobRecord
  | .ok value => { rec with
      status := .completed
      result := some value }
  | .error e =>
    let (kind, message) := e.toKindMessage
    { rec with
      status := .failed
      result := some (.obj [("kind", .str kind), ("message", .str message)]) }

def JobRecord.toJson (rec : JobRecord) : Json :=
  .obj ([("id", .str rec.id.display), ("function_id", .str rec.functionId.display),
      ("tenant_id", .nat rec.tenantId.toNat), ("status", .str rec.status.display)]
    ++ (rec.result.toList.map fun r => ("result", r))
    ++ [("created_unix_ms", .nat rec.createdUnixMs)])

/-! ## The native stream -/

structure StreamTerminalError where
  kind : String
  message : String

/-- What the task of `invoke_function_stream` reports at its end. -/
def streamTerminal : Except ExecError Json → Except StreamTerminalError Unit
  | .ok _ => .ok ()
  | .error (.timeout _ elapsedMs deadlineMs) =>
    .error ⟨"deadline_elapsed", s!"instance exceeded deadline ({elapsedMs} ms / {deadlineMs} ms)"⟩
  | .error e => .error ⟨"wasm_error", sanitisedExecErrorMessage e⟩

def streamTerminalEvent : Except StreamTerminalError Unit → Event
  | .ok () => ⟨some "done", .obj [("status", .str "ok")]⟩
  | .error err => ⟨some "error", .obj [("reason", .str err.kind), ("message", .str err.message)]⟩

/-! ## The OpenAI routes -/

inductive OpenAiObject
  | textCompletion
  | chatCompletion

namespace OpenAiObject

def objectKind : OpenAiObject → String
  | textCompletion => "text_completion"
  | chatCompletion => "chat.completion"

def chunkObjectKind : OpenAiObject → String
  | textCompletion => "text_completion"
  | chatCompletion => "chat.completion.chunk"

def idPrefix : OpenAiObject → String
  | textCompletion => "cmpl-"
  | chatCompletion => "chatcmpl-"

end OpenAiObject

def estimateTokens (text : String) : Nat :=
  let chars := text.length
  if chars = 0 then 0 else max ((chars + 3) / 4) 1

def usageBlock (promptTokens completionTokens : Nat) : Json :=
  .obj [("prompt_tokens", .nat promptTokens), ("completion_tokens", .nat completionTokens),
    ("total_tokens", .nat (min (promptTokens + completionTokens) (2 ^ 64 - 1)))]

/-- The chunks `run_buffered` collects: it stops at the first one that would take it past 16 MiB. -/
def collectChunks : Bytes → List Bytes → Bytes
  | collected, [] => collected
  | collected, chunk :: chunks =>
    if collected.length + chunk.length > 16 * 1024 * 1024 then collected
    else collectChunks (collected ++ chunk) chunks

/-- The fields every OpenAI response starts with. -/
structure OpenAiHeader where
  object : OpenAiObject
  responseId : Uuid
  created : Nat
  model : String

def OpenAiHeader.fields (h : OpenAiHeader) (objectKind : String) : List (String × Json) :=
  [("id", .str (h.object.idPrefix ++ h.responseId.display)), ("object", .str objectKind),
    ("created", .nat h.created), ("model", .str h.model)]

def runBuffered (h : OpenAiHeader) (fromUtf8Lossy : Bytes → String) (prompt : String)
    (chunks : List Bytes) (a : Answers) : Response :=
  match a.start with
  | .error e => (mapExecErrorToOpenai e).intoResponse
  | .ok _ =>
    let text := fromUtf8Lossy (collectChunks [] chunks)
    let choice : Json := match h.object with
      | .textCompletion => .obj [("text", .str text), ("index", .nat 0), ("finish_reason", .str "stop"),
          ("logprobs", .null)]
      | .chatCompletion => .obj [("index", .nat 0),
          ("message", .obj [("role", .str "assistant"), ("content", .str text)]),
          ("finish_reason", .str "stop")]
    ⟨200, .obj (h.fields h.object.objectKind ++
      [("choices", .arr [choice]), ("usage", usageBlock (estimateTokens prompt) (estimateTokens text))])⟩

def makeTerminalEvent (h : OpenAiHeader) : Option ExecError → Event
  | some err => ⟨none, .obj (h.fields h.object.chunkObjectKind ++ [("error", .obj [
      ("message", .str (sanitisedExecErrorMessage err)),
      ("type", .str "server_error"),
      ("code", .str (execErrorCode err))])])⟩
  | none =>
    let choice : Json := match h.object with
      | .textCompletion => .obj [("text", .str ""), ("index", .nat 0), ("finish_reason", .str "stop"),
          ("logprobs", .null)]
      | .chatCompletion => .obj [("index", .nat 0), ("delta", .obj []), ("finish_reason", .str "stop")]
    ⟨none, .obj (h.fields h.object.chunkObjectKind ++ [("choices", .arr [choice])])⟩

/-! ## What the client gets to see -/

inductive Surface
  | invoke
  | asyncJob
  | stream
  | openAiBuffered
  | openAiStream

/-- What the end of an invocation depends on beside the executor. The ids and the times in it are drawn by
the gateway. -/
structure Invocation where
  functionId : Uuid
  exportOverride : Option String
  job : JobRecord
  header : OpenAiHeader
  fromUtf8Lossy : Bytes → String
  prompt : String
  chunks : List Bytes

inductive Reply
  | response (r : Response)
  | frame (e : Event)

def Reply.body : Reply → Json
  | response r => r.body
  | frame e => e.data

namespace Surface

def outcome (x : Invocation) (a : Answers) : Surface → Except ExecError Json
  | invoke | asyncJob | stream => a.outcome x.exportOverride
  | openAiBuffered | openAiStream => a.start

/-- The response, or the last frame of a streamed one. The record of a job is read back after its task has
ended. -/
def reply (x : Invocation) (a : Answers) : Surface → Reply
  | invoke => .response <| match runInvoke x.functionId x.exportOverride a with
    | .ok value => ⟨200, value⟩
    | .error e => e.intoResponse
  | asyncJob => .response ⟨200, (x.job.finish (runInvoke x.functionId x.exportOverride a)).toJson⟩
  | stream => .frame (streamTerminalEvent (streamTerminal (a.outcome x.exportOverride)))
  | openAiBuffered => .response (runBuffered x.header x.fromUtf8Lossy x.prompt x.chunks a)
  | openAiStream => .frame <| makeTerminalEvent x.header <| match a.start with
    | .ok _ => none
    | .error e => some e

/-- Where the message of an error stands in the body. -/
def messagePath : Surface → List String
  | invoke | openAiBuffered | openAiStream => ["error", "message"]
  | asyncJob => ["result", "message"]
  | stream => ["message"]

end Surface

end TensorWasm.Api
