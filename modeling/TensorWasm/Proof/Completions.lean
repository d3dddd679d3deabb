import TensorWasm.Api.Gateway
import TensorWasm.Lib.Utf8

/-!
# Completions, streamed and buffered

The text of a streamed completion is decoded chunk by chunk, that of a buffered one in one piece. They are the same
exactly where no cut splits a sequence: a chunk that ends inside one has a replacement character there, whatever
the next chunk begins with.
-/

namespace TensorWasm.Api

open Lib

/-! ## The text -/

/-- Where the text stands in a choice. -/
def OpenAiObject.textPath (streamed : Bool) : OpenAiObject → List String
  | textCompletion => ["text"]
  | chatCompletion => [if streamed then "delta" else "message", "content"]

def completionText (object : OpenAiObject) (streamed : Bool) (body : Json) : Option String :=
  match body.get? "choices" with
  | some (.arr (choice :: _)) => choice.textAt (object.textPath streamed)
  | _ => none

variable (gw : Gateway) (h : OpenAiHeader) {a : Answers} {chunks : List Bytes}

/-- The texts of the events, one behind the other, are the text of the response. -/
def SameText (prompt : String) (a : Answers) (chunks : List Bytes) : Prop :=
  ∃ (texts : List String) (text : String),
    chunks.map (fun c => completionText h.object true (makeChunkEvent gw h c).data) = texts.map some ∧
    completionText h.object false (runBuffered h gw.fromUtf8Lossy prompt chunks a).body = some text ∧
    texts.flatMap String.toList = text.toList

theorem text_makeChunkEvent (c : Bytes) :
    completionText h.object true (makeChunkEvent gw h c).data = some (gw.fromUtf8Lossy c) := by
  cases hobj : h.object <;> simp [completionText, makeChunkEvent, OpenAiHeader.fields, OpenAiObject.textPath,
    Json.textAt, Json.get?, Json.asStr, List.lookup, hobj]

theorem text_runBuffered {v : Json} (ha : a.start = .ok v) (prompt : String) :
    completionText h.object false (runBuffered h gw.fromUtf8Lossy prompt chunks a).body =
      some (gw.fromUtf8Lossy (collectChunks [] chunks)) := by
  cases hobj : h.object <;> simp [completionText, runBuffered, OpenAiHeader.fields, OpenAiObject.textPath,
    Json.textAt, Json.get?, Json.asStr, List.lookup, hobj, ha]

theorem collectChunks_eq {collected : Bytes} (hsize : (collected ++ chunks.flatten).length ≤ 16 * 1024 * 1024) :
    collectChunks collected chunks = collected ++ chunks.flatten := by
  induction chunks generalizing collected with
  | nil => simp [collectChunks]
  | cons c chunks ih =>
    rw [List.flatten_cons, ← List.append_assoc] at hsize ⊢
    have hc : ¬ collected.length + c.length > 16 * 1024 * 1024 := by
      rw [List.length_append, List.length_append] at hsize
      omega
    rw [collectChunks, if_neg hc, ih hsize]

theorem sameText_iff {v : Json} (ha : a.start = .ok v) (prompt : String) :
    SameText gw h prompt a chunks ↔
      chunks.flatMap (fun c => (gw.fromUtf8Lossy c).toList) = (gw.fromUtf8Lossy (collectChunks [] chunks)).toList := by
  have hevents : chunks.map (fun c => completionText h.object true (makeChunkEvent gw h c).data) =
      (chunks.map gw.fromUtf8Lossy).map some := by
    simp [text_makeChunkEvent]
  rw [SameText, hevents, text_runBuffered gw h ha, ← List.flatMap_map]
  constructor
  · rintro ⟨texts, text, htexts, htext, hsame⟩
    cases htext
    rwa [List.map_injective_iff.mpr (Option.some_injective _) htexts]
  · exact fun hsame => ⟨_, _, rfl, rfl, hsame⟩

/-- The streamed text is that of the buffered response exactly where no chunk ends inside a sequence that
the next byte continues. An unfinished sequence that the next byte breaks off, or the end of the text, is a
replacement character either way. -/
theorem streamed_text_same_iff {v : Json} (hgw : gw.fromUtf8Lossy = fromUtf8Lossy) (ha : a.start = .ok v)
    (hsize : chunks.flatten.length ≤ 16 * 1024 * 1024) (prompt : String) :
    SameText gw h prompt a chunks ↔ CutsBetween chunks := by
  rw [sameText_iff gw h ha, collectChunks_eq (by simpa using hsize), List.nil_append, hgw]
  simp only [fromUtf8Lossy, String.toList_ofList]
  rw [eq_comm]
  exact decodeLossy_flatten_iff

/-- A gateway that decodes as the standard library does. -/
def lossyGateway : Gateway :=
  ⟨none, fun _ => none, fun _ => none, fun _ => "", fun _ => "", fromUtf8Lossy, fun _ => true,
    fun _ _ _ _ => none, fun _ _ => none⟩

def plainHeader : OpenAiHeader := ⟨.textCompletion, 0, 0, ""⟩

def answering : Answers := ⟨.ok (), fun _ => .ok .null, .ok ()⟩

/-- An accented letter in one chunk, behind one that breaks off: its first byte is taken for a sequence which
the next chunk does not continue. -/
theorem streamed_text_same_letters :
    SameText lossyGateway plainHeader "" answering [[0x41, 0xC3], [], [0xC3, 0xA9]] := by
  refine (streamed_text_same_iff lossyGateway plainHeader rfl rfl (by decide) "").mpr ⟨?_, ?_, ?_, trivial⟩
  · rintro _ ⟨⟩
    rfl
  · rintro _ ⟨⟩
    rfl
  · rintro _ ⟨⟩

/-- An accented letter, cut in two. -/
theorem cut_letter : ¬ SameText lossyGateway plainHeader "" answering [[0xC3], [0xA9]] := by
  rw [sameText_iff lossyGateway plainHeader rfl]
  decide +kernel

end TensorWasm.Api
