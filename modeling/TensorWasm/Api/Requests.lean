import TensorWasm.Api.RateLimit
import TensorWasm.Api.Response

/-!
# Requests and the checks that need no registry

What a handler decides from the request alone: the scope of the token, the name and the bytes of a new
function, the arguments of an invocation, and the translation of an OpenAI request. Codecs and the module
validator are outside of this module and are given to it.
-/

namespace TensorWasm.Api

/-! ## Authorisation -/

inductive TenantScope
  | all
  | set (tenants : List TenantId)

def TenantScope.allows (tenant : TenantId) : TenantScope → Bool
  | all => true
  | set tenants => tenants.contains tenant

structure AuthContext where
  tokenId : TokenId
  scope : TenantScope

def AuthContext.authorizeTenant (ctx : AuthContext) (tenant : TenantId) : Except ApiError Unit :=
  if ctx.scope.allows tenant then .ok ()
  else .error <| .forbidden "tenant_scope_denied"
    s!"bearer token is not scoped to tenant {tenant}; extend the token's tenant= clause in TENSOR_WASM_API_TOKENS"

def requireAuthorize (auth : Option AuthContext) (tenant : TenantId) : Except ApiError Unit :=
  match auth with
  | some ctx => ctx.authorizeTenant tenant
  | none => .error (.internal "auth context missing: router misconfigured")

/-! ## Bodies -/

/-- What the `Json` extractor makes of a body. -/
abbrev Payload (α : Type) := Except JsonRejection α

def Payload.json {α : Type} (payload : Payload α) : Except ApiError α := payload.mapError ApiError.ofRejection

structure CreateFunctionRequest where
  name : String
  wasmB64 : String

structure InvokeRequest where
  exportOverride : Option String
  args : List Json

structure SnapshotSaveRequest where
  functionId : Uuid

structure SnapshotRestoreRequest where
  snapshotB64 : String

def WASM_MIN_HEADER_BYTES : Nat := 8

def MAX_FUNCTION_NAME_BYTES : Nat := 256

def MAX_INVOKE_ARGS : Nat := 256

/-- `char::is_whitespace`. -/
def isWhitespace (c : Char) : Bool :=
  let n := c.toNat
  (9 ≤ n && n ≤ 13) || (0x2000 ≤ n && n ≤ 0x200A)
    || [0x20, 0x85, 0xA0, 0x1680, 0x2028, 0x2029, 0x202F, 0x205F, 0x3000].contains n

/-- `char::is_control`. -/
def isControl (c : Char) : Bool :=
  let n := c.toNat
  n < 0x20 || (0x7F ≤ n && n ≤ 0x9F)

/-- `s.trim().is_empty()`. -/
def isBlank (s : String) : Bool := s.toList.all isWhitespace

def validateFunctionName (name : String) : Except ApiError Unit := do
  if isBlank name then throw (.badRequest "invalid_name" "function name must not be empty")
  if name.utf8ByteSize > MAX_FUNCTION_NAME_BYTES then
    throw (.badRequest "invalid_name" "function name exceeds 256 bytes")
  if name.toList.any isControl then
    throw (.badRequest "invalid_name" "function name contains control characters")

def readInvokeRequest (payload : Payload InvokeRequest) : Except ApiError InvokeRequest :=
  match payload with
  | .ok req => .ok req
  | .error rej =>
    -- no body, or one that is not declared as JSON
    if rej.status = 415 || isBlank rej.bodyText then .ok ⟨none, []⟩ else .error (.ofRejection rej)

/-- `f32` is never chosen for a JSON number; an `f64` is known by the number it is converted from. -/
inductive WasmArg
  | i32 (v : Int)
  | i64 (v : Int)
  | f64 (n : Number)

def WasmArg.fromJson : Json → Except String WasmArg
  | .num (.int n) =>
    if -2 ^ 63 ≤ n ∧ n < 2 ^ 63 then
      if -2 ^ 31 ≤ n ∧ n < 2 ^ 31 then .ok (.i32 n) else .ok (.i64 n)
    else .ok (.f64 (.int n))
  | .num (.float bits) => .ok (.f64 (.float bits))
  | _ => .error "unsupported arg type — only numbers"

/-- `render` writes a value as `serde_json` does. -/
def parseInvokeArgs (render : Json → String) (raw : List Json) : Except ApiError (List WasmArg) := do
  let len := raw.length
  if len > MAX_INVOKE_ARGS then
    throw (.badRequest "too_many_args" s!"args list has {len} elements (maximum {MAX_INVOKE_ARGS})")
  raw.zipIdx.mapM fun (v, i) =>
    (WasmArg.fromJson v).mapError fun msg =>
      let value := render v
      .badRequest "invalid_args" s!"args[{i}]: {msg} (value: {value})"

/-- `BASE64.decode`. -/
def decodeWasmB64 (decode : String → Option (List UInt8)) (b64 : String) : Except ApiError (List UInt8) :=
  match decode b64 with
  | some bytes => .ok bytes
  | none => .error (.badRequest "invalid_base64" "invalid base64 payload")

def checkModule (validate : List UInt8 → Bool) (bytes : List UInt8) : Except ApiError Unit := do
  let len := bytes.length
  if len < WASM_MIN_HEADER_BYTES then
    throw (.badRequest "invalid_wasm"
      s!"module too short: {len} bytes (minimum {WASM_MIN_HEADER_BYTES})")
  if !validate bytes then throw (.badRequest "invalid_wasm" "invalid wasm module")

/-! ## OpenAI requests -/

structure CompletionsRequest where
  model : String
  prompt : Json
  maxTokens : Option UInt32
  temperature : Option ℚ
  stream : Option Bool
  echo : Option Bool
  n : Option UInt32

structure ChatMessage where
  role : String
  content : Json

structure ChatCompletionsRequest where
  model : String
  messages : List ChatMessage
  maxTokens : Option UInt32
  temperature : Option ℚ
  stream : Option Bool
  n : Option UInt32
  tools : Option Json

structure TranslatedRequest where
  functionId : Uuid
  prompt : String
  args : List WasmArg
  stream : Bool

abbrev ModelMap := String → Option Uuid

def extractPromptText : Json → String
  | .str s => s
  | .arr items => "\n".intercalate (items.filterMap Json.asStr)
  | _ => ""

def extractMessageContent (msg : ChatMessage) : String :=
  match msg.content with
  | .str s => s
  | .arr parts => " ".intercalate (parts.filterMap fun p => (p.get? "text").bind Json.asStr)
  | _ => ""

def assembleChatPrompt (messages : List ChatMessage) : String :=
  let line (msg : ChatMessage) :=
    (if msg.role.isEmpty then "user" else msg.role) ++ ": " ++ extractMessageContent msg ++ "\n"
  messages.foldl (fun out msg => out ++ line msg) "" ++ "assistant:"

def lookupModel (model : String) (map : ModelMap) : Except OpenAiError Uuid :=
  match map model with
  | some id => .ok id
  | none => .error <| .modelNotFound <|
    s!"model `{model}` is not configured in TENSOR_WASM_API_OPENAI_MODEL_MAP; "
      ++ s!"ask your operator to add a `{model}:<function_uuid>` entry"

def unsupportedParameter (field message : String) : OpenAiError :=
  (OpenAiError.invalidRequest message (some field)).withCode "unsupported_parameter"

def rejectUnsupportedKnob (field : String) (value honoredDefault : Option ℚ) : Except OpenAiError Unit :=
  match value with
  | none => .ok ()
  | some v =>
    if some v = honoredDefault then .ok ()
    else .error <| unsupportedParameter field <|
      s!"`{field}` is not supported by this gateway: the underlying executor exposes no "
        ++ s!"sampling controls. Omit `{field}` and retry."

def rejectUnsupportedBool (field : String) (value : Option Bool) : Except OpenAiError Unit :=
  if value = some true then
    .error <| unsupportedParameter field <|
      s!"`{field}` is not supported by this gateway: the underlying executor cannot "
        ++ s!"echo the prompt. Omit `{field}` (or send `{field}: false`) and retry."
  else .ok ()

def rejectUnsupportedTools (tools : Option Json) : Except OpenAiError Unit :=
  let populated := match tools with
    | none | some .null => false
    | some (.arr a) => !a.isEmpty
    | some _ => true
  if populated then
    .error <| unsupportedParameter "tools" <|
      "`tools` is not supported by this gateway: the underlying executor has no "
        ++ "tool-calling dispatch. Omit `tools` and retry."
  else .ok ()

def asKnob (v : Option UInt32) : Option ℚ := v.map fun n => n.toNat

def translateCompletionsRequest (map : ModelMap) (req : CompletionsRequest) :
    Except OpenAiError TranslatedRequest := do
  let functionId ← lookupModel req.model map
  rejectUnsupportedKnob "max_tokens" (asKnob req.maxTokens) none
  rejectUnsupportedKnob "temperature" req.temperature (some 1)
  rejectUnsupportedKnob "n" (asKnob req.n) (some 1)
  rejectUnsupportedBool "echo" req.echo
  return ⟨functionId, extractPromptText req.prompt, [], req.stream.getD false⟩

def translateChatCompletionsRequest (map : ModelMap) (req : ChatCompletionsRequest) :
    Except OpenAiError TranslatedRequest := do
  let functionId ← lookupModel req.model map
  rejectUnsupportedKnob "max_tokens" (asKnob req.maxTokens) none
  rejectUnsupportedKnob "temperature" req.temperature (some 1)
  rejectUnsupportedKnob "n" (asKnob req.n) (some 1)
  rejectUnsupportedTools req.tools
  return ⟨functionId, assembleChatPrompt req.messages, [], req.stream.getD false⟩

end TensorWasm.Api
