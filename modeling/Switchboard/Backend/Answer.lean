import Switchboard.Chat.Response
import Switchboard.Claude.Response
import Switchboard.Embedding
import Switchboard.Gemini.Response
import Switchboard.Image
import Switchboard.Responses

/-!
# Answers of backends

A backend is asked for an answer of a kind. What is no such answer is refused in the words of
the library that reads it. They are not ours to choose, but they do matter: they become the text
of an error, and a probe looks for marks in it.
-/

namespace Switchboard

/-- The kinds of whole answers. -/
inductive AnswerKind where
  | chat
  | responses
  | message
  | embedding
  | image
  | contents
  deriving DecidableEq, Repr

namespace AnswerKind

/-- The answers of a kind. -/
abbrev Answer : AnswerKind → Type
  | chat => Chat.Response
  | responses => Responses.Response
  | message => Claude.Response
  | embedding => Embedding.Response
  | image => Image.Response
  | contents => Gemini.Response

/-- Read a value as an answer of a kind. -/
def read : (kind : AnswerKind) → Json → Option kind.Answer
  | chat => Chat.Response.ofJson?
  | responses => Responses.Response.ofJson?
  | message => Claude.Response.ofJson?
  | embedding => Embedding.Response.ofJson?
  | image => Image.Response.ofJson?
  | contents => Gemini.Response.ofJson?

end AnswerKind

/-- In what words a library refuses what is no answer of a kind. -/
structure Wording where
  /-- A text that is not JSON, or is no answer. -/
  ofText : AnswerKind → String → String
  /-- A value that is no answer. -/
  ofValue : AnswerKind → Json → String
  /-- Bytes that are not JSON, or are no answer. -/
  ofBytes : AnswerKind → List UInt8 → String

/-- A library that does not say what is wrong. -/
def Wording.plain : Wording :=
  ⟨fun _ _ => "not an answer of this kind", fun _ _ => "not an answer of this kind",
    fun _ _ => "not an answer of this kind"⟩

end Switchboard
