import Switchboard.Health.Probe
import Switchboard.Proofs.Backend.Joined
import Switchboard.Proofs.Text.Lowercase

/-!
# Probes that are answered with an event stream

A probe asks for a whole answer, and a backend may send an event stream. Its chunks are joined,
and if they come to no answer, the error decides whether the probe is made once more, streamed :
its text has to show a marker (`eventStreamMarkers`). Nothing but the text of the failure itself
can show one, since the words in front of it end in no part of a marker
(`showsEventStream_undecodable`).

Without any chunk the failure is worded here, with a marker. But chunks that are no answer are
refused in the words of the reader. What is joined has the id, the time and the model of the first
chunk, or null, and all the rest can be read whatever the chunks are, so the first chunk alone
decides whether there is an answer (`isSome_read_joinChunks`). `attempts_of_stream` puts this
together. A reader that complains of a null does not speak of a stream, and then the channel
counts as failed (`refused_of_nameless`).
-/

namespace Switchboard.Health.Probe

open Json

/-! ## Markers -/

/-- What stands in front of the text of a failure to decode. -/
def decodeFailure : String := "Failed to decode upstream response: "

theorem isClearOf_decodeFailure : ∀ marker ∈ eventStreamMarkers,
    Text.IsClearOf decodeFailure.toList marker.toList := by
  decide +kernel

theorem showsEventStream_undecodable (text : String) :
    showsEventStream (.undecodable text) = eventStreamMarkers.any (Text.contains text) :=
  Text.any_contains_append isClearOf_decodeFailure text

/-! ## Answers -/

/-- Whether an answer of a kind can have the id, the time and the model of a chunk, or null in
their places. A message has a role besides, and joined chunks have none. -/
def fits (kind : AnswerKind) (chunk : Json) : Bool :=
  let carried key := (chunk.get? key).getD .null
  match kind with
  | .chat => (string? (carried "id")).isSome && (u64? (carried "created")).isSome &&
      (string? (carried "model")).isSome
  | .responses => (string? (carried "id")).isSome && (string? (carried "model")).isSome
  | .message => false
  | .embedding => (string? (carried "model")).isSome
  | .image => (u64? (carried "created")).isSome
  | .contents => true

/-- The first chunk decides whether joined chunks are an answer. -/
theorem isSome_read_joinChunks (kind : AnswerKind) (first : Json) (chunks : List Json) :
    (kind.read (joinChunks first chunks)).isSome = fits kind first := by
  cases kind with
  | chat =>
    rw [AnswerKind.read, ofJson?_joinChunks, fits]
    cases string? ((first.get? "id").getD .null) <;>
      cases u64? ((first.get? "created").getD .null) <;>
      cases string? ((first.get? "model").getD .null) <;> rfl
  | responses =>
    have read : Responses.Response.ofJson? (joinChunks first chunks) = (do
        let id ← string? ((first.get? "id").getD .null)
        let model ← string? ((first.get? "model").getD .null)
        return ⟨id, none, model, [], some ⟨0, 0, 0⟩⟩) := rfl
    rw [AnswerKind.read, read, fits]
    cases string? ((first.get? "id").getD .null) <;>
      cases string? ((first.get? "model").getD .null) <;> rfl
  | message =>
    have read : Claude.Response.ofJson? (joinChunks first chunks) = (do
        let _ ← string? ((first.get? "id").getD .null)
        none) := rfl
    rw [AnswerKind.read, read, fits]
    cases string? ((first.get? "id").getD .null) <;> rfl
  | embedding =>
    have read : Embedding.Response.ofJson? (joinChunks first chunks) = (do
        let model ← string? ((first.get? "model").getD .null)
        return ⟨"chat.completion", [], model, some ⟨0, 0, 0⟩⟩) := rfl
    rw [AnswerKind.read, read, fits]
    cases string? ((first.get? "model").getD .null) <;> rfl
  | image =>
    have read : Image.Response.ofJson? (joinChunks first chunks) = (do
        let created ← u64? ((first.get? "created").getD .null)
        return ⟨created, []⟩) := rfl
    rw [AnswerKind.read, read, fits]
    cases u64? ((first.get? "created").getD .null) <;> rfl
  | contents => rfl

/-! ## Attempts -/

/-- Whether a probe is made once more, streamed, when its first attempt fails with an error. -/
def IsRepeated (e : Error) (again : Bool) : Prop :=
  ∀ (σ : Type) (h : Handle σ) (category : Category) (model : String) (limit : Nat)
    (session session' : Session σ), (call h category model).run session = (.error e, session') →
      ((attempts h category model limit).run session).1.2.isSome = again

theorem isRepeated (e : Error) : IsRepeated e (showsEventStream e) := by
  intro σ h category model limit session session' failed
  have failed : call h category model session = (.error e, session') := failed
  show (attempts h category model limit session).1.2.isSome = showsEventStream e
  simp only [attempts, bind, StateT.bind, ExceptT.run, failed]
  cases showsEventStream e <;> rfl

/-- What becomes of a probe whose answer is an event stream, in whatever words chunks are refused
that come to no answer. Without chunks it is made once more. With some, the first one decides
whether there is an answer, and if not, then it is made once more exactly if the words of the
refusal show a marker. -/
theorem attempts_of_stream (words : Wording) (kind : AnswerKind) {body : String}
    (stream : isEventStream body = true) :
    (chunksOfStream body = [] →
      ∃ e, decodeBody words kind body = .error e ∧ IsRepeated e true) ∧
    ∀ first rest, chunksOfStream body = first :: rest →
      (fits kind first = true → ∃ answer, decodeBody words kind body = .ok answer) ∧
      (fits kind first = false → ∃ e, decodeBody words kind body = .error e ∧
        IsRepeated e (eventStreamMarkers.any
          (Text.contains (words.ofValue kind (joinChunks first (first :: rest)))))) := by
  constructor
  · intro chunks
    refine ⟨.undecodable "no valid JSON chunks found in streaming response", ?_, ?_⟩
    · simp only [decodeBody, if_pos stream, chunks]
    · have shown : showsEventStream
          (.undecodable "no valid JSON chunks found in streaming response") = true := by
        decide +kernel
      exact shown ▸ isRepeated _
  · intro first rest chunks
    have read := isSome_read_joinChunks kind first (first :: rest)
    rw [decodeBody_of_chunks words kind stream chunks]
    constructor
    · intro fits
      obtain ⟨answer, found⟩ := Option.isSome_iff_exists.mp (read.trans fits)
      exact ⟨answer, by rw [found]; rfl⟩
    · intro unfit
      have nothing := Option.not_isSome_iff_eq_none.mp (Bool.eq_false_iff.mp (read.trans unfit))
      refine ⟨_, by rw [nothing]; rfl, ?_⟩
      rw [← showsEventStream_undecodable]
      exact isRepeated _

/-- A chunk of an answer with a text and nothing else. -/
def nameless : Json := .object [("choices", .array [.object
  [("delta", .object [("content", .string "hi")]), ("index", .nat 0)]])]

/-- With a reader that complains of the null in place of a time, a stream of this one chunk is not
tried again, and a stream of nothing but its end is. -/
theorem attempts_of_stream_nameless :
    (∃ e, decodeBody nullWording .chat ("data: " ++ nameless.render ++ "\n\n") = .error e ∧
      IsRepeated e false) ∧
    ∃ e, decodeBody nullWording .chat "data: [DONE]\n\n" = .error e ∧ IsRepeated e true := by
  constructor
  · have stream : isEventStream ("data: " ++ nameless.render ++ "\n\n") = true := by decide +kernel
    have chunks : chunksOfStream ("data: " ++ nameless.render ++ "\n\n") = [nameless] := by
      decide +kernel
    have silent : eventStreamMarkers.any (Text.contains "invalid type: null, expected u64") =
        false := by
      decide +kernel
    rw [← silent]
    exact ((attempts_of_stream nullWording .chat stream).2 nameless [] chunks).2 (by decide +kernel)
  · have stream : isEventStream "data: [DONE]\n\n" = true := by decide +kernel
    exact (attempts_of_stream nullWording .chat stream).1 (by decide +kernel)

/-- The failure of that stream does not show that there was one. -/
theorem refused_of_nameless :
    let body := "data: " ++ nameless.render ++ "\n\n"
    let failure : Error := .undecodable "invalid type: null, expected u64"
    isEventStream body = true ∧ decodeBody nullWording .chat body = .error failure ∧
      showsEventStream failure = false := by
  decide +kernel

end Switchboard.Health.Probe
