import Mathlib.Algebra.Group.Nat.Defs
import Mathlib.Data.List.Basic

/-!
# What the gateway writes back

JSON bodies and the two error envelopes of `tensor-wasm-api`: `ApiError` of `routes.rs`, which the native
routes answer with, and `OpenAiError` of `openai.rs`. Serialisation to text is left out: a body is the value
that is serialised, and an event of a stream is its name and its data.
-/

namespace TensorWasm.Api

abbrev Uuid := BitVec 128

/-- Hyphenated lower-case hexadecimal. -/
def Uuid.display (id : Uuid) : String :=
  let digit (i : Nat) := Nat.digitChar (id.toNat / 16 ^ (31 - i) % 16)
  let group (start len : Nat) := String.ofList ((List.range' start len).map digit)
  group 0 8 ++ "-" ++ group 8 4 ++ "-" ++ group 12 4 ++ "-" ++ group 16 4 ++ "-" ++ group 20 12

/-- A `serde_json::Number`: an integer of 64 bits, signed or not, or the bits of a finite `f64`. -/
inductive Number
  | int (n : Int)
  | float (bits : UInt64)

inductive Json
  | null
  | bool (b : Bool)
  | num (n : Number)
  | str (s : String)
  | arr (items : List Json)
  | obj (fields : List (String × Json))

namespace Json

def nat (n : Nat) : Json := num (.int n)

/-- `json!(o)` of an optional string. -/
def ofOption : Option String → Json
  | none => null
  | some s => str s

def get? (key : String) : Json → Option Json
  | obj fields => fields.lookup key
  | _ => none

def asStr : Json → Option String
  | str s => some s
  | _ => none

/-- The text a path of field names leads to. -/
def textAt : List String → Json → Option String
  | [], j => j.asStr
  | key :: path, j => (j.get? key).bind (textAt path)

end Json

structure Response where
  status : Nat
  body : Json

/-- A server-sent event. The branch for clients that did not ask for events writes its last frame in the
same format. -/
structure Event where
  event : Option String
  data : Json

/-- What `axum` says about a body it could not extract. -/
structure JsonRejection where
  status : Nat
  bodyText : String

/-! ## The native envelope -/

structure ApiError where
  status : Nat
  kind : String
  message : String

namespace ApiError

def badRequest (kind message : String) : ApiError := ⟨400, kind, message⟩

def forbidden (kind message : String) : ApiError := ⟨403, kind, message⟩

def notFound (message : String) : ApiError := ⟨404, "not_found", message⟩

def serviceUnavailable (kind message : String) : ApiError := ⟨503, kind, message⟩

def internal (message : String) : ApiError := ⟨500, "internal", message⟩

def bodyTooLarge (message : String) : ApiError := ⟨413, "body_too_large", message⟩

def toKindMessage (e : ApiError) : String × String := (e.kind, e.message)

def intoResponse (e : ApiError) : Response :=
  ⟨e.status, .obj [("error", .obj [("kind", .str e.kind), ("message", .str e.message)])]⟩

/-- `From<JsonRejection>`. -/
def ofRejection (rej : JsonRejection) : ApiError :=
  if rej.status = 413 then bodyTooLarge rej.bodyText else badRequest "invalid_json" rej.bodyText

end ApiError

/-! ## The OpenAI envelope -/

structure OpenAiError where
  message : String
  kind : String
  param : Option String
  code : Option String

namespace OpenAiError

def invalidRequest (message : String) (param : Option String) : OpenAiError :=
  ⟨message, "invalid_request_error", param, some "openai_invalid_request"⟩

def withCode (e : OpenAiError) (code : String) : OpenAiError := { e with code := some code }

def modelNotFound (message : String) : OpenAiError :=
  ⟨message, "invalid_request_error", some "model", some "model_not_found"⟩

def serverError (message code : String) : OpenAiError := ⟨message, "server_error", none, some code⟩

def tenantScopeDenied (message : String) : OpenAiError :=
  ⟨message, "invalid_request_error", none, some "tenant_scope_denied"⟩

def status (e : OpenAiError) : Nat :=
  match e.kind, e.code with
  | "invalid_request_error", some "model_not_found" => 404
  | "invalid_request_error", some "tenant_scope_denied" => 403
  | "invalid_request_error", _ => 400
  | "server_error", _ => 500
  | _, _ => 501

def intoResponse (e : OpenAiError) : Response :=
  ⟨e.status, .obj [("error", .obj [
    ("message", .str e.message),
    ("type", .str e.kind),
    ("param", .ofOption e.param),
    ("code", .ofOption e.code)])]⟩

end OpenAiError

end TensorWasm.Api
