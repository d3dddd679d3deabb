import TensorWasm.Api.StreamWriter

/-!
# What the stream writers deliver

The frames written and the frames still to come are together what the response has to be; every move of the task
and every step of the writer keeps this (`Delivering.step`). Once the task is through, a poll either takes a chunk
or moves the writer on, so that enough polls close the response (`run_closed`).
-/

namespace TensorWasm.Api.StreamWriter

variable {ε : Type} (w : StreamWriter ε) (outcome : Option (Except ε Unit)) {sent : List Bytes}
  {s : Streamed ε}

/-- The whole response: the chunks in the order they were sent, the outcome, and the mark. -/
def response (sent : List Bytes) : List (StreamFrame ε) :=
  sent.map .chunk ++ .terminal (outcome.getD w.lost) :: if w.marksDone then [.doneMarker] else []

def toCome (s : Streamed ε) : List (StreamFrame ε) :=
  match s.writer with
  | .emitDone => [.doneMarker]
  | .closed => []
  | _ => w.response outcome (s.chunks ++ s.toSend)

/-- A writer that has looked past the chunks knows that no more are sent. -/
structure Delivering (sent : List Bytes) (s : Streamed ε) : Prop where
  frames : s.frames ++ w.toCome outcome s = w.response outcome sent
  done : ∀ r, s.done = some r → r = outcome ∧ s.toSend = []
  dropped : s.sending = false → s.toSend = []
  writer : match s.writer with
    | .awaitDone => s.chunks = [] ∧ s.toSend = []
    | .sawDone terminal => terminal = outcome.getD w.lost ∧ s.toSend = []
    | .drainOnly terminal => terminal = some (outcome.getD w.lost) ∧ s.toSend = []
    | _ => True

variable {w outcome}

namespace Delivering

variable (h : Delivering w outcome sent s)

include h

theorem emitTerminal (hrest : w.toCome outcome s = w.response outcome []) :
    Delivering w outcome sent (w.emitTerminal s (outcome.getD w.lost)) := by
  have hframes := h.frames
  rw [hrest, response, List.map_nil, List.nil_append] at hframes
  unfold StreamWriter.emitTerminal emit
  split <;> next hmark =>
    refine ⟨?_, h.done, h.dropped, trivial⟩
    simpa [toCome, hmark] using hframes

theorem drain (hsent : s.toSend = []) (hrest : w.toCome outcome s = w.response outcome (s.chunks ++ s.toSend)) :
    Delivering w outcome sent (w.drain s (outcome.getD w.lost)) := by
  unfold StreamWriter.drain
  split
  · next c rest hchunks =>
    refine ⟨?_, h.done, h.dropped, rfl, hsent⟩
    rw [← h.frames, hrest, hchunks]
    simp [emit, toCome, response]
  · next hchunks => exact h.emitTerminal (by rw [hrest, hchunks, hsent, List.append_nil])

theorem poll : Delivering w outcome sent (w.poll s) := by
  obtain ⟨toSend, chunks, sending, done, writer, frames⟩ := s
  cases writer with
  | streaming =>
    cases chunks with
    | cons c rest =>
      refine ⟨?_, h.done, h.dropped, trivial⟩
      simpa [StreamWriter.poll, emit, toCome, response] using h.frames
    | nil =>
      cases sending with
      | true => exact ⟨h.frames, h.done, h.dropped, trivial⟩
      | false => exact ⟨h.frames, h.done, h.dropped, rfl, h.dropped rfl⟩
  | noChunk =>
    cases done with
    | none => exact ⟨h.frames, h.done, h.dropped, trivial⟩
    | some r =>
      obtain ⟨rfl, hsent⟩ := h.done r rfl
      exact ⟨h.frames, h.done, h.dropped, rfl, hsent⟩
  | awaitDone =>
    obtain ⟨rfl, rfl⟩ := h.writer
    cases done with
    | none => exact h
    | some r =>
      obtain ⟨rfl, -⟩ := h.done r rfl
      exact h.emitTerminal rfl
  | sawDone terminal =>
    obtain ⟨rfl, hsent⟩ := h.writer
    exact h.drain hsent rfl
  | drainOnly terminal =>
    obtain ⟨rfl, hsent⟩ := h.writer
    exact h.drain hsent rfl
  | emitDone =>
    refine ⟨?_, h.done, h.dropped, trivial⟩
    simpa [StreamWriter.poll, emit, toCome] using h.frames
  | closed => exact h

theorem send {c : Bytes} {rest : List Bytes} (hsend : s.toSend = c :: rest) :
    Delivering w outcome sent { s with toSend := rest, chunks := s.chunks ++ [c] } := by
  have hne : s.toSend ≠ [] := hsend ▸ List.cons_ne_nil c rest
  refine ⟨?_, fun r hr => absurd (h.done r hr).2 hne, fun hdropped => absurd (h.dropped hdropped) hne, ?_⟩
  · rw [← h.frames, toCome.eq_def w outcome s, hsend, List.append_cons s.chunks c rest]
    rfl
  · have hwriter := h.writer
    dsimp only
    split at hwriter
    · exact absurd hwriter.2 hne
    · exact absurd hwriter.2 hne
    · exact absurd hwriter.2 hne
    · trivial

theorem step {capacity : Nat} (move : StreamMove) : Delivering w outcome sent (w.step capacity outcome s move) := by
  cases move with
  | send =>
    rw [StreamWriter.step]
    split
    · next c rest hsend =>
      split
      · exact h.send hsend
      · exact h
    · exact h
  | dropSender =>
    rw [StreamWriter.step]
    split
    · next hsent => exact ⟨h.frames, h.done, fun _ => hsent, h.writer⟩
    · exact h
  | endTask =>
    rw [StreamWriter.step]
    split
    · next hsent =>
      refine ⟨h.frames, ?_, h.dropped, h.writer⟩
      rintro r ⟨⟩
      exact ⟨rfl, hsent⟩
    · exact h
  | poll => exact h.poll

omit h

theorem run (w : StreamWriter ε) (capacity : Nat) (outcome : Option (Except ε Unit)) (sent : List Bytes)
    (moves : List StreamMove) : Delivering w outcome sent (w.run capacity outcome sent moves) := by
  refine Lib.run_keeps (fun s move h => h.step move) ⟨rfl, ?_, ?_, trivial⟩ moves
  · rintro r ⟨⟩
  · rintro ⟨⟩

end Delivering

theorem Delivering.complete (h : Delivering w outcome sent s) (hclosed : s.writer = .closed) :
    s.frames = w.response outcome sent := by
  have hframes := h.frames
  rwa [toCome, hclosed, List.append_nil] at hframes

/-! ## The end of the response -/

/-- How many polls there are at most before the response ends, once the task is through. -/
def pollsLeft (s : Streamed ε) : Nat :=
  match s.writer with
  | .streaming => s.chunks.length + 4
  | .noChunk | .awaitDone => s.chunks.length + 3
  | .sawDone _ | .drainOnly _ => s.chunks.length + 2
  | .emitDone => 1
  | .closed => 0

theorem pollsLeft_emitTerminal (w : StreamWriter ε) (s : Streamed ε) (terminal : Except ε Unit) :
    pollsLeft (w.emitTerminal s terminal) ≤ 1 := by
  unfold emitTerminal emit pollsLeft
  cases w.marksDone <;> simp

theorem pollsLeft_drain (w : StreamWriter ε) (s : Streamed ε) (terminal : Except ε Unit) :
    pollsLeft (w.drain s terminal) ≤ s.chunks.length + 1 := by
  unfold drain
  split
  · next hchunks => simp [hchunks, pollsLeft, emit]
  · exact (pollsLeft_emitTerminal w s terminal).trans (Nat.le_add_left 1 _)

theorem pollsLeft_poll (w : StreamWriter ε) (hdone : s.done ≠ none) : pollsLeft (w.poll s) ≤ pollsLeft s - 1 := by
  obtain ⟨toSend, chunks, sending, done, writer, frames⟩ := s
  obtain ⟨r, rfl⟩ := Option.ne_none_iff_exists'.mp hdone
  cases writer with
  | streaming => cases chunks <;> cases sending <;> simp [poll, emit, pollsLeft]
  | noChunk => exact Nat.le_refl _
  | awaitDone => exact (pollsLeft_emitTerminal w _ _).trans (by simp [pollsLeft])
  | sawDone terminal => exact pollsLeft_drain w _ terminal
  | drainOnly terminal => exact pollsLeft_drain w _ _
  | emitDone => exact Nat.le_refl _
  | closed => exact Nat.le_refl _

theorem poll_task (w : StreamWriter ε) (s : Streamed ε) :
    (w.poll s).done = s.done ∧ (w.poll s).toSend = s.toSend := by
  unfold poll drain emitTerminal emit
  repeat' split
  all_goals exact ⟨rfl, rfl⟩

theorem pollsLeft_run (w : StreamWriter ε) (capacity : Nat) (hdone : s.done = some outcome) (hsent : s.toSend = [])
    (later : List StreamMove) :
    pollsLeft (Lib.run (w.step capacity outcome) s later) ≤ pollsLeft s - later.count .poll := by
  induction later generalizing s with
  | nil => exact Nat.le_refl _
  | cons move later ih =>
    cases move with
    | poll =>
      obtain ⟨hdone', hsent'⟩ := poll_task w s
      have hpoll := pollsLeft_poll w (hdone ▸ Option.some_ne_none outcome)
      rw [Lib.run_cons, List.count_cons_self]
      exact (ih (hdone'.trans hdone) (hsent'.trans hsent)).trans (by omega)
    -- with nothing left to send, the task's own moves make no difference to the writer
    | send | dropSender | endTask =>
      rw [Lib.run_cons, List.count_cons_of_ne (by decide)]
      refine (ih ?_ ?_).trans_eq ?_ <;> simp [step, hdone, hsent, pollsLeft]

theorem closed_of_pollsLeft (h : pollsLeft s = 0) : s.writer = .closed := by
  unfold pollsLeft at h
  split at h <;> first | assumption | omega

/-- Once the task is through, enough polls end the response, and it is complete. -/
theorem run_closed (w : StreamWriter ε) (capacity : Nat) (outcome : Option (Except ε Unit)) (sent : List Bytes)
    (moves later : List StreamMove) (hended : (w.run capacity outcome sent moves).done ≠ none)
    (hpolls : (w.run capacity outcome sent moves).chunks.length + 4 ≤ later.count .poll) :
    (w.run capacity outcome sent (moves ++ later)).writer = .closed ∧
      (w.run capacity outcome sent (moves ++ later)).frames = w.response outcome sent := by
  have hmoves := Delivering.run w capacity outcome sent moves
  obtain ⟨r, hr⟩ := Option.ne_none_iff_exists'.mp hended
  obtain ⟨rfl, hsent⟩ := hmoves.done r hr
  have hleft := pollsLeft_run w capacity hr hsent later
  have hbound : pollsLeft (w.run capacity r sent moves) ≤ (w.run capacity r sent moves).chunks.length + 4 := by
    unfold pollsLeft
    split <;> omega
  have hclosed : (w.run capacity r sent (moves ++ later)).writer = .closed := by
    rw [StreamWriter.run, Lib.run_append]
    exact closed_of_pollsLeft (Nat.le_zero.mp (hleft.trans (by omega)))
  exact ⟨hclosed, (Delivering.run w capacity r sent (moves ++ later)).complete hclosed⟩

/-- Whatever the order of the moves, the response so far is a part of what it has to be, and once the task is
through it gets there and ends. -/
theorem stream_delivered (w : StreamWriter ε) (capacity : Nat) (outcome : Except ε Unit) (sent : List Bytes)
    (moves : List StreamMove) :
    let s := w.run capacity (some outcome) sent moves
    s.frames <+: w.response (some outcome) sent ∧
      (s.writer = .closed → s.frames = w.response (some outcome) sent) ∧
      (s.done ≠ none → ∀ later : List StreamMove, s.chunks.length + 4 ≤ later.count .poll →
        (w.run capacity (some outcome) sent (moves ++ later)).writer = .closed) := by
  have h := Delivering.run w capacity (some outcome) sent moves
  exact ⟨⟨_, h.frames⟩, h.complete, fun hended later hpolls => (run_closed w _ _ _ _ _ hended hpolls).1⟩

/-- Three chunks through a channel of two, with polls in between. -/
def interleavedMoves : List StreamMove := [.send, .poll, .send, .send, .poll, .dropSender, .endTask]

theorem stream_delivered_interleaved :
    (openAiWriter.run 2 (some (.ok ())) [[7], [8], [9]] (interleavedMoves ++ .replicate 5 .poll)).writer = .closed := by
  obtain ⟨-, -, hcloses⟩ := stream_delivered openAiWriter 2 (.ok ()) [[7], [8], [9]] interleavedMoves
  exact hcloses (Option.some_ne_none _) _ (by decide)

/-! ## A task that never reports -/

section Lost

variable (capacity : Nat) (sent : List Bytes) (moves later : List StreamMove)

theorem error_mem_response (w : StreamWriter ε) :
    (∃ e, .terminal (.error e) ∈ w.response none sent) ↔ ∃ e, w.lost = .error e := by
  cases hmark : w.marksDone <;> simp [response, hmark, eq_comm (b := w.lost)]

/-- A response whose task was lost ends in an error just when the writer takes the loss for one. -/
theorem lost_task_error_iff (w : StreamWriter ε) (capacity : Nat) (sent : List Bytes)
    (moves later : List StreamMove) (hended : (w.run capacity none sent moves).done ≠ none)
    (hpolls : (w.run capacity none sent moves).chunks.length + 4 ≤ later.count .poll) :
    (∃ e, .terminal (.error e) ∈ (w.run capacity none sent (moves ++ later)).frames) ↔ ∃ e, w.lost = .error e := by
  rw [(run_closed w capacity none sent moves later hended hpolls).2]
  exact error_mem_response sent w

theorem lost_task_error_native :
    ∃ e, .terminal (.error e) ∈ (nativeWriter.run 1 none [[7]] ([.send, .endTask] ++ .replicate 5 .poll)).frames :=
  (lost_task_error_iff nativeWriter 1 [[7]] [.send, .endTask] _ (Option.some_ne_none _) (by decide)).mpr ⟨_, rfl⟩

theorem nativeWriter_reports_loss (hended : (nativeWriter.run capacity none sent moves).done ≠ none)
    (hpolls : (nativeWriter.run capacity none sent moves).chunks.length + 4 ≤ later.count .poll) :
    ∃ e, .terminal (.error e) ∈ (nativeWriter.run capacity none sent (moves ++ later)).frames := by
  rw [(run_closed nativeWriter capacity none sent moves later hended hpolls).2]
  exact (error_mem_response sent nativeWriter).mpr ⟨_, rfl⟩

/-- Every response of the OpenAI writer ends as if all was well. -/
theorem openAiWriter_hides_loss (hended : (openAiWriter.run capacity none sent moves).done ≠ none)
    (hpolls : (openAiWriter.run capacity none sent moves).chunks.length + 4 ≤ later.count .poll) :
    (openAiWriter.run capacity none sent (moves ++ later)).frames =
      sent.map .chunk ++ [.terminal (.ok ()), .doneMarker] :=
  (run_closed openAiWriter capacity none sent moves later hended hpolls).2

end Lost

theorem lost_task_completed :
    (openAiWriter.run 32 none [] [.dropSender, .endTask, .poll, .poll, .poll]).frames =
      [.terminal (.ok ()), .doneMarker] := rfl

end TensorWasm.Api.StreamWriter
