import TensorWasm.Api.Invoke

/-!
# The writers of a streamed response

`invoke_function_stream` and `run_streaming` hand the guest the sending end of a bounded channel and a oneshot
channel for the outcome, and turn the other ends into a response with the same state machine. They differ in the
outcome they put in for one that never came, and in the `[DONE]` event behind the terminal frame. One poll of the
response is cut where the task can act in between: the biased `select!` looks at the chunks, then at the oneshot,
and its second branch goes back to the chunks.
-/

namespace TensorWasm.Api

open Lib

structure StreamWriter (ε : Type) where
  /-- The outcome when the oneshot is gone. -/
  lost : Except ε Unit
  marksDone : Bool

def nativeWriter : StreamWriter StreamTerminalError :=
  ⟨.error ⟨"wasm_error", "executor task dropped without signalling"⟩, false⟩

def openAiWriter : StreamWriter Executor.ExecError := ⟨.ok (), true⟩

inductive StreamFrame (ε : Type)
  | chunk (c : Bytes)
  | terminal (outcome : Except ε Unit)
  | doneMarker

inductive StreamWriterState (ε : Type)
  | streaming
  /-- `recv` had nothing, the oneshot is looked at next. -/
  | noChunk
  /-- `recv` has seen the channel closed. -/
  | awaitDone
  /-- The oneshot is through, `try_recv` comes next. -/
  | sawDone (terminal : Except ε Unit)
  | drainOnly (terminal : Option (Except ε Unit))
  | emitDone
  | closed

/-- The task with both channels, and the response so far. -/
structure Streamed (ε : Type) where
  toSend : List Bytes
  chunks : List Bytes := []
  sending : Bool := true
  /-- Set when the task is through with the oneshot: with what it reported, or dropped. -/
  done : Option (Option (Except ε Unit)) := none
  writer : StreamWriterState ε := .streaming
  frames : List (StreamFrame ε) := []

inductive StreamMove
  | send
  | dropSender
  | endTask
  | poll
  deriving DecidableEq

namespace StreamWriter

variable {ε : Type} (w : StreamWriter ε)

def emit (s : Streamed ε) (frame : StreamFrame ε) (next : StreamWriterState ε) : Streamed ε :=
  { s with
    frames := s.frames ++ [frame]
    writer := next }

def emitTerminal (s : Streamed ε) (terminal : Except ε Unit) : Streamed ε :=
  emit s (.terminal terminal) (if w.marksDone then .emitDone else .closed)

/-- `try_recv` with the outcome known: the rest of the chunks goes first. -/
def drain (s : Streamed ε) (terminal : Except ε Unit) : Streamed ε :=
  match s.chunks with
  | c :: rest => emit { s with chunks := rest } (.chunk c) (.drainOnly (some terminal))
  | [] => w.emitTerminal s terminal

def poll (s : Streamed ε) : Streamed ε :=
  match s.writer with
  | .streaming =>
    match s.chunks with
    | c :: rest => emit { s with chunks := rest } (.chunk c) .streaming
    | [] => { s with writer := if s.sending then .noChunk else .awaitDone }
  | .noChunk =>
    match s.done with
    | none => { s with writer := .streaming }
    | some outcome => { s with writer := .sawDone (outcome.getD w.lost) }
  | .awaitDone =>
    match s.done with
    | none => s
    | some outcome => w.emitTerminal s (outcome.getD w.lost)
  | .sawDone terminal => w.drain s terminal
  | .drainOnly terminal => w.drain s (terminal.getD (.ok ()))
  | .emitDone => emit s .doneMarker .closed
  | .closed => s

/-- A task with the given outcome, or none. It blocks on a full channel, and has sent all its chunks when it lets
go of the channel or of the oneshot, in whatever order. -/
def step (capacity : Nat) (outcome : Option (Except ε Unit)) (s : Streamed ε) : StreamMove → Streamed ε
  | .send =>
    match s.toSend with
    | c :: rest =>
      if s.chunks.length < capacity then { s with toSend := rest, chunks := s.chunks ++ [c] } else s
    | [] => s
  | .dropSender => if s.toSend = [] then { s with sending := false } else s
  | .endTask => if s.toSend = [] then { s with done := some outcome } else s
  | .poll => w.poll s

def run (capacity : Nat) (outcome : Option (Except ε Unit)) (sent : List Bytes) (moves : List StreamMove) :
    Streamed ε :=
  Lib.run (w.step capacity outcome) { toSend := sent } moves

end StreamWriter

end TensorWasm.Api
