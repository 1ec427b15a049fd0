import Switchboard.Text.Search

/-!
# Categories of models

The name of a model tells what kind of request it answers. Names are matched against
rules, and the first rule that matches decides; a name that no rule matches is that of a
chat model.
-/

namespace Switchboard.Health

/-- The kinds of requests. A model of an unsupported category cannot be probed. -/
inductive Category where
  | unsupported
  | embeddings
  | image
  | responses
  | chat
  deriving DecidableEq, Repr

/-- A piece of a name: at its start, or anywhere in it. -/
inductive NamePattern where
  | start (s : String)
  | part (s : String)
  deriving DecidableEq, Repr

/-- Whether a name has the piece where it should be. -/
def NamePattern.matches (p : NamePattern) (name : String) : Bool :=
  match p with
  | start s => s.toList.isPrefixOf name.toList
  | .part s => Text.contains name s

namespace Category

/-- The name of a category. -/
def name : Category → String
  | unsupported => "unsupported"
  | embeddings => "embeddings"
  | image => "image"
  | responses => "responses"
  | chat => "chat"

/-- The rules, the more important ones first. -/
def rules : List (Category × List NamePattern) :=
  [(unsupported, [.start "tts", .part "rerank", .part "whisper", .part "speech", .start "mj_",
      .start "chirp"]),
    (embeddings, [.start "text-", .part "embed", .part "Embed", .part "rerank", .part "davinci",
      .part "babbage", .part "bge-", .part "e5-", .part "LLM2Vec", .part "retrieval",
      .part "uae-", .part "gte-", .part "jina-clip", .part "jina-embeddings"]),
    (image, [.part "flux", .part "diffusion", .part "stabilityai", .part "sd-", .part "dall",
      .part "cogview", .part "janus", .part "image"]),
    (responses, [.start "o1", .start "o2", .start "o3", .start "o4", .start "o5", .start "o6",
      .start "o7", .start "o8", .start "o9"])]

/-- The category of a model. -/
def ofModel (model : String) : Category :=
  match rules.find? fun rule => rule.2.any fun p => p.matches model with
  | some (category, _) => category
  | none => chat

end Category

end Switchboard.Health
