import TensorWasm.Api.Middleware

/-!
# Tenants from headers

A header value that is not text is treated like no header at all (`tenant_resolution_iff`).
-/

namespace TensorWasm.Api

open Lib

/-! ## Tenants -/

/-- The trimmed value is a decimal number of 64 bits. -/
def HeaderValue.Reads (h : HeaderValue) (t : TenantId) : Prop := ∃ s, h.toStr = some s ∧ parseU64 (trim s) = some t

structure TenantResolution (headers : List HeaderValue) (cfg : TenantConfig) : Prop where
  ok_iff : ∀ t, extractTenant headers cfg = .ok t ↔
    (∃ h, headers = [h] ∧ h.Reads t) ∨ (headers = [] ∧ cfg.requireHeader = false ∧ t = 0)
  refused : ∀ h ∈ headers, (∀ t, ¬ h.Reads t) → ∃ e, extractTenant headers cfg = .error e

variable {h : HeaderValue}

/-- A value that is text decides alone. -/
theorem extractTenant_text {s : Text} (hs : h.toStr = some s) (cfg : TenantConfig) (t : TenantId) :
    extractTenant [h] cfg = .ok t ↔ h.Reads t := by
  have hreads : h.Reads t ↔ parseU64 (trim s) = some t := by simp [HeaderValue.Reads, hs]
  rw [hreads]
  simp only [extractTenant, List.length_singleton, gt_iff_lt, Nat.lt_irrefl, if_false, List.head?_cons,
    Option.bind_some, hs]
  cases parseU64 (trim s) <;> simp

/-- A value that is not text counts as none. -/
theorem extractTenant_unreadable (hs : h.toStr = none) (cfg : TenantConfig) :
    extractTenant [h] cfg = extractTenant [] cfg := by
  simp [extractTenant, hs]

theorem not_reads_unreadable (hs : h.toStr = none) (t : TenantId) : ¬ h.Reads t := by
  simp [HeaderValue.Reads, hs]

theorem extractTenant_nil (cfg : TenantConfig) (t : TenantId) :
    extractTenant [] cfg = .ok t ↔ cfg.requireHeader = false ∧ t = 0 := by
  simp only [extractTenant, List.length_nil, List.head?_nil, Option.bind_none]
  cases cfg.requireHeader <;> simp [eq_comm]

/-- Every value is resolved as it should be just when the header is required or no single value is anything but
text. -/
theorem tenant_resolution_iff (headers : List HeaderValue) (cfg : TenantConfig) :
    TenantResolution headers cfg ↔ cfg.requireHeader = true ∨ ∀ h, headers = [h] → h.toStr ≠ none := by
  constructor
  · intro hres
    by_contra hnot
    obtain ⟨hrequired, hsingle⟩ := not_or.mp hnot
    push Not at hsingle
    obtain ⟨h, rfl, hs⟩ := hsingle
    obtain ⟨e, he⟩ := hres.refused h (List.mem_singleton_self h) (not_reads_unreadable hs)
    have hok := (extractTenant_nil cfg 0).mpr ⟨eq_false_of_ne_true hrequired, rfl⟩
    rw [extractTenant_unreadable hs, hok] at he
    cases he
  · intro hcond
    have hok : ∀ t, extractTenant headers cfg = .ok t ↔
        (∃ h, headers = [h] ∧ h.Reads t) ∨ (headers = [] ∧ cfg.requireHeader = false ∧ t = 0) := by
      intro t
      match headers with
      | [] => simpa using extractTenant_nil cfg t
      | [h] =>
        cases hs : h.toStr with
        | some s => simpa using extractTenant_text hs cfg t
        | none =>
          have hrequired := hcond.resolve_right fun hsingle => hsingle h rfl hs
          simp [extractTenant_unreadable hs, extractTenant_nil, hrequired, not_reads_unreadable hs]
      | _ :: _ :: _ => simp [extractTenant]
    refine ⟨hok, fun h hmem hnone => ?_⟩
    cases hout : extractTenant headers cfg with
    | error e => exact ⟨e, rfl⟩
    | ok t =>
      rcases (hok t).mp hout with ⟨h', rfl, hreads⟩ | ⟨rfl, -⟩
      · exact absurd (List.mem_singleton.mp hmem ▸ hreads) (hnone t)
      · cases hmem

/-- A value of one byte that is no text gives the tenant zero. -/
theorem unreadable_header_admitted : extractTenant [[255]] ⟨false⟩ = .ok 0 ∧ ∀ t, ¬ HeaderValue.Reads [255] t :=
  ⟨rfl, not_reads_unreadable rfl⟩

end TensorWasm.Api
