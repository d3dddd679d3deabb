import TensorWasm.Api.Requests
import TensorWasm.Lib.Text

/-!
# What the snapshot commands print

The end of `save` and `restore` of `tensor-wasm-cli/src/cmd/snapshot.rs`, from the server's answer to the terminal,
with `render_error_response` and `sanitise_terminal_output` of `cmd/mod.rs` and the last lines of `main`.
-/

namespace TensorWasm.Cli

open Api (isWhitespace isControl)

/-- `str::trim`. -/
def trim (s : String) : String := .ofList (Lib.trimBy isWhitespace s.toList)

def sanitiseChars : List Char → List Char
  | [] => []
  | c :: cs =>
    let rest := sanitiseChars cs
    -- dropped, whether or not a line feed follows
    if c = '\r' then rest
    else if c = '\n' ∨ c = '\t' then c :: rest
    else if isControl c then '?' :: rest
    else c :: rest

def sanitiseTerminalOutput (s : String) : String := .ofList (sanitiseChars s.toList)

/-- What `serde_json` finds in a body: the kind and message of an error envelope, and a string under `id`. -/
structure BodyReader where
  envelope : String → Option (String × String)
  id : String → Option String

/-- No control character but line feeds and tabs. -/
def Clean (s : String) : Prop := ∀ c ∈ s.toList, c = '\n' ∨ c = '\t' ∨ isControl c = false

/-- A text of the user or of the program itself. -/
abbrev OwnText := { s : String // Clean s }

structure Answer where
  status : ℕ
  /-- The body as text, or why it could not be read. -/
  body : Except OwnText String
  /-- How many bytes of a snapshot were written, or why it was not. -/
  stored : Except OwnText ℕ

def Answer.isSuccess (a : Answer) : Bool := 200 ≤ a.status && a.status < 300

variable (reader : BodyReader)

def renderErrorResponse (status : ℕ) (body : String) : String :=
  match reader.envelope body with
  | some (kind, message) => s!"server returned {status} ({kind}): {message}"
  | none =>
    let trimmed := trim body
    if trimmed = "" then s!"server returned {status} with empty body" else s!"server returned {status}: {trimmed}"

def notYetShipped (action : String) (url : OwnText) : String :=
  s!"snapshot {action} requires API support not yet shipped (server returned 404 for {url}); track at " ++
    "https://github.com/craton-co/craton-tensor-wasm/issues"

/-- The error for an answer that is no success. -/
def refusal (action : String) (url : OwnText) (status : ℕ) (body : String) : String :=
  if status = 404 ∧ reader.envelope body = none then notYetShipped action url
  else renderErrorResponse reader status body

def save (url output : OwnText) (a : Answer) : Except String String :=
  if a.isSuccess then
    match a.stored with
    | .ok received => .ok s!"snapshot save: wrote {received} bytes to {output}"
    | .error e => .error e
  else
    match a.body with
    | .error e => .error s!"reading error body from {url}: {e}"
    | .ok body => .error (refusal reader "save" url a.status body)

def restore (url : OwnText) (a : Answer) : Except String String :=
  match a.body with
  | .error e => .error s!"reading response body from {url}: {e}"
  | .ok body =>
    if a.isSuccess then .ok (sanitiseTerminalOutput ((reader.id body).getD (trim body)))
    else .error (refusal reader "restore" url a.status body)

/-- What `main` leaves on the terminal. -/
def printed : Except String String → String
  | .ok line => line
  | .error e => s!"Error: {e}"

end TensorWasm.Cli
