import TensorWasm.Api.RateLimit
import TensorWasm.Lib.Text

/-!
# Header values

`extract_tenant` of `tensor-wasm-api/src/middleware.rs`. A header value is a string of bytes; it may hold bytes that
are not text.
-/

namespace TensorWasm.Api

open Lib

abbrev Text := List Char

abbrev HeaderValue := List UInt8

/-- `HeaderValue::to_str`: a text of visible ASCII characters, spaces and tabs. -/
def HeaderValue.toStr (v : HeaderValue) : Option Text :=
  if v.all fun b => (32 ≤ b && b < 127) || b = 9 then some (v.map fun b => Char.ofNat b.toNat) else none

/-- `str::trim`. -/
def trim (s : Text) : Text := trimBy Char.isWhitespace s

/-! ## Tenants -/

structure TenantConfig where
  requireHeader : Bool

/-- The envelope of a refusal with the status 400. -/
structure BadRequest where
  kind : String
  message : String

/-- The argument is the values of the tenant header, in order. -/
def extractTenant (headers : List HeaderValue) (cfg : TenantConfig) : Except BadRequest TenantId :=
  if headers.length > 1 then
    .error ⟨"duplicate_tenant_header", "multiple X-TensorWasm-Tenant headers are not allowed"⟩
  else
    match headers.head?.bind HeaderValue.toStr with
    | none =>
      if cfg.requireHeader then
        .error ⟨"missing_tenant", "X-TensorWasm-Tenant header is required (TENSOR_WASM_API_REQUIRE_TENANT=1)"⟩
      else .ok 0
    | some s =>
      match parseU64 (trim s) with
      | some v => .ok v
      | none => .error ⟨"invalid_tenant", "X-TensorWasm-Tenant must be a u64"⟩

end TensorWasm.Api
