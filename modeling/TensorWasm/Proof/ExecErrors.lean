import TensorWasm.Api.Invoke

/-!
# What an executor error tells the client

`sanitised_exec_error_message` has one fixed text for each variant of `ExecError`, and the status, kind and
code that go with it depend on the variant alone. Three of the five surfaces answer with nothing else. The
buffered OpenAI response carries the error's own text, and the native stream spells out the figures of a
deadline.
-/

namespace TensorWasm.Executor.ExecError

/-- An error of the variant that has nothing to tell. -/
def Variant.sample : Variant → ExecError
  | wasmtime => .wasmtime ""
  | notFound => .notFound 0
  | missingExport => .missingExport ""
  | timeout => .timeout 0 0 0
  | moduleMemoryTooLarge => .moduleMemoryTooLarge 0 0
  | capacityExhausted => .capacityExhausted 0 0
  | tenantCapacityExhausted => .tenantCapacityExhausted 0 0 0
  | moduleTooLarge => .moduleTooLarge 0 0
  | epochTickerNotRunning => .epochTickerNotRunning
  | unsupportedReturnType => .unsupportedReturnType ""

@[simp] theorem variant_sample (v : Variant) : v.sample.variant = v := by
  cases v <;> rfl

end TensorWasm.Executor.ExecError

namespace TensorWasm.Api

open Executor (ExecError)
open Executor.ExecError (Variant)

/-! ## Texts that depend on the variant alone -/

variable (e : ExecError)

theorem sanitised_eq_sample : sanitisedExecErrorMessage e = sanitisedExecErrorMessage e.variant.sample := by
  cases e <;> rfl

theorem ofExecError_eq_sample : ApiError.ofExecError e = ApiError.ofExecError e.variant.sample := by
  cases e <;> rfl

theorem execErrorCode_eq_sample : execErrorCode e = execErrorCode e.variant.sample := by
  cases e <;> rfl

@[simp] theorem ofExecError_message : (ApiError.ofExecError e).message = sanitisedExecErrorMessage e := by
  cases e <;> rfl

variable {e : ExecError}

theorem streamTerminal_error (h : e.variant ≠ .timeout) :
    streamTerminal (.error e) = .error ⟨"wasm_error", sanitisedExecErrorMessage e⟩ := by
  cases e with
  | timeout id elapsedMs deadlineMs => exact absurd rfl h
  | _ => rfl

/-- The text of an error is never the one that is meant for clients. -/
theorem display_sample_ne (v : Variant) : v.sample.display ≠ sanitisedExecErrorMessage v.sample := by
  cases v <;> decide +kernel

/-! ## The reply to an invocation that failed -/

namespace Surface

def errorReply (x : Invocation) (e : ExecError) : Surface → Reply
  | invoke => .response (ApiError.ofExecError e).intoResponse
  | asyncJob => .response ⟨200, (x.job.finish (.error (.ofExecError e))).toJson⟩
  | stream => .frame (streamTerminalEvent (streamTerminal (.error e)))
  | openAiBuffered => .response (mapExecErrorToOpenai e).intoResponse
  | openAiStream => .frame (makeTerminalEvent x.header (some e))

theorem reply_of_error {s : Surface} {x : Invocation} {a : Answers}
    (h : s.outcome x a = .error e) : s.reply x a = s.errorReply x e := by
  cases s <;> simp only [outcome] at h <;> simp [reply, errorReply, runInvoke, runBuffered, h]

/-- An executor that has no instance to give. -/
def refusing (e : ExecError) : Answers := ⟨.error e, fun _ => .error e, .error e⟩

@[simp] theorem outcome_refusing (s : Surface) (x : Invocation) (e : ExecError) :
    s.outcome x (refusing e) = .error e := by
  cases s <;> rfl

end Surface

/-- Errors of the variant look alike on the surface, and say what is fixed for the variant. -/
def Sanitised (s : Surface) (v : Variant) : Prop :=
  ∀ (x : Invocation) (a a' : Answers) (e e' : ExecError),
    s.outcome x a = .error e → s.outcome x a' = .error e' → e.variant = v → e'.variant = v →
    s.reply x a = s.reply x a' ∧ (s.reply x a).body.textAt s.messagePath = some (sanitisedExecErrorMessage e)

/-- The buffered OpenAI response is left out, and so are deadlines on the native stream. -/
def Spared (s : Surface) (v : Variant) : Prop := s ≠ .openAiBuffered ∧ (s = .stream → v ≠ .timeout)

/-! ## Where the detail stays inside -/

variable (x : Invocation)

theorem errorReply_congr {s : Surface} {e' : ExecError} (hs : Spared s e.variant)
    (h : e.variant = e'.variant) : s.errorReply x e = s.errorReply x e' := by
  have hmsg : sanitisedExecErrorMessage e = sanitisedExecErrorMessage e' := by
    rw [sanitised_eq_sample e, h, ← sanitised_eq_sample]
  have happ : ApiError.ofExecError e = ApiError.ofExecError e' := by
    rw [ofExecError_eq_sample e, h, ← ofExecError_eq_sample]
  have hcode : execErrorCode e = execErrorCode e' := by
    rw [execErrorCode_eq_sample e, h, ← execErrorCode_eq_sample]
  cases s with
  | invoke | asyncJob => simp only [Surface.errorReply, happ]
  | stream =>
    have ht : e.variant ≠ .timeout := hs.2 rfl
    simp [Surface.errorReply, streamTerminal_error ht, streamTerminal_error (h ▸ ht), hmsg]
  | openAiBuffered => exact absurd rfl hs.1
  | openAiStream => simp only [Surface.errorReply, makeTerminalEvent, hmsg, hcode]

theorem errorReply_message {s : Surface} (hs : Spared s e.variant) :
    (s.errorReply x e).body.textAt s.messagePath = some (sanitisedExecErrorMessage e) := by
  cases s with
  | invoke =>
    simp [Surface.errorReply, Reply.body, ApiError.intoResponse, Surface.messagePath, Json.textAt,
      Json.get?, Json.asStr, List.lookup]
  | asyncJob =>
    simp [Surface.errorReply, Reply.body, JobRecord.finish, JobRecord.toJson, ApiError.toKindMessage,
      Surface.messagePath, Json.textAt, Json.get?, Json.asStr, List.lookup]
  | stream =>
    simp [Surface.errorReply, Reply.body, streamTerminal_error (hs.2 rfl), streamTerminalEvent,
      Surface.messagePath, Json.textAt, Json.get?, Json.asStr, List.lookup]
  | openAiBuffered => exact absurd rfl hs.1
  | openAiStream =>
    simp [Surface.errorReply, Reply.body, makeTerminalEvent, OpenAiHeader.fields, Surface.messagePath,
      Json.textAt, Json.get?, Json.asStr, List.lookup]

/-! ## Where it does not -/

theorem buffered_message :
    (Surface.openAiBuffered.errorReply x e).body.textAt ["error", "message"] = some e.display := by
  simp [Surface.errorReply, Reply.body, mapExecErrorToOpenai, OpenAiError.serverError,
    OpenAiError.intoResponse, Json.textAt, Json.get?, Json.asStr]

theorem stream_timeout_message (id elapsedMs deadlineMs : Nat) :
    (Surface.stream.errorReply x (.timeout id elapsedMs deadlineMs)).body.textAt ["message"]
      = some s!"instance exceeded deadline ({elapsedMs} ms / {deadlineMs} ms)" := by
  simp [Surface.errorReply, Reply.body, streamTerminal, streamTerminalEvent, Json.textAt, Json.get?,
    Json.asStr, List.lookup]

/-- An invocation with nothing in it. -/
def Invocation.blank : Invocation where
  functionId := 0
  exportOverride := none
  job := ⟨0, 0, 0, .pending, none, 0⟩
  header := ⟨.textCompletion, 0, 0, ""⟩
  fromUtf8Lossy := fun _ => ""
  prompt := ""
  chunks := []

theorem Sanitised.sample_message {s : Surface} {v : Variant} (h : Sanitised s v) :
    (s.errorReply .blank v.sample).body.textAt s.messagePath = some (sanitisedExecErrorMessage v.sample) := by
  have hout : s.outcome .blank (Surface.refusing v.sample) = .error v.sample := Surface.outcome_refusing s _ _
  have hv := ExecError.variant_sample v
  rw [← Surface.reply_of_error hout]
  exact (h _ _ _ _ _ hout hout hv hv).2

theorem buffered_not_sanitised (v : Variant) : ¬ Sanitised .openAiBuffered v := by
  intro h
  have hmsg := h.sample_message
  rw [Surface.messagePath, buffered_message] at hmsg
  exact display_sample_ne v (Option.some.inj hmsg)

theorem stream_timeout_not_sanitised : ¬ Sanitised .stream .timeout := by
  intro h
  have hmsg := h.sample_message
  rw [Surface.messagePath, Variant.sample, stream_timeout_message] at hmsg
  exact absurd (Option.some.inj hmsg) (by decide +kernel)

/-- The fixed text and nothing else reaches the client, but for the two surfaces above. -/
theorem sanitised_iff_spared (s : Surface) (v : Variant) : Sanitised s v ↔ Spared s v := by
  constructor
  · intro h
    refine ⟨?_, ?_⟩
    · rintro rfl
      exact buffered_not_sanitised v h
    · rintro rfl rfl
      exact stream_timeout_not_sanitised h
  · intro hs x a a' e e' ha ha' he he'
    subst he
    rw [Surface.reply_of_error ha, Surface.reply_of_error ha']
    exact ⟨errorReply_congr x hs he'.symm, errorReply_message x hs⟩

/-- Two requests that run into the same deadline. On the native stream the client reads when the ticker
caught each of them, in the buffered OpenAI response the number of the instance as well. -/
theorem timeouts_told_apart :
    let first : Answers := ⟨.ok (), fun _ => .error (.timeout 7 30004 30000), .ok ()⟩
    let second : Answers := ⟨.ok (), fun _ => .error (.timeout 8 30011 30000), .ok ()⟩
    (Surface.stream.reply .blank first).body.textAt ["message"]
        = some "instance exceeded deadline (30004 ms / 30000 ms)" ∧
      (Surface.stream.reply .blank second).body.textAt ["message"]
        = some "instance exceeded deadline (30011 ms / 30000 ms)" ∧
      (Surface.openAiBuffered.reply .blank first).body.textAt ["error", "message"]
        = some "instance I#7 exceeded deadline (elapsed 30004 ms, deadline 30000 ms)" ∧
      (Surface.openAiBuffered.reply .blank second).body.textAt ["error", "message"]
        = some "instance I#8 exceeded deadline (elapsed 30011 ms, deadline 30000 ms)" ∧
      ¬ Sanitised .stream .timeout ∧ ¬ Sanitised .openAiBuffered .timeout := by
  refine ⟨?_, ?_, ?_, ?_, stream_timeout_not_sanitised, buffered_not_sanitised _⟩ <;> decide +kernel

end TensorWasm.Api
