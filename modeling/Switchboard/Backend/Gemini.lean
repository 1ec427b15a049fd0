import Switchboard.Backend.Call
import Switchboard.Conversion.ChatToGemini
import Switchboard.Conversion.GeminiToChat

/-!
# Gemini backends

Backends that generate content, asked in terms of chat. The model is part of the
address, and the kind of answer is the method behind it.
-/

namespace Switchboard

/-- A backend at an address, and what opens it. -/
structure GeminiBackend where
  name : String
  baseUrl : String
  key : String
  deriving DecidableEq, Repr

namespace GeminiBackend

/-- The backend at an address, which may end with slashes. -/
def ofAddress (name baseUrl key : String) : GeminiBackend := ⟨name, Text.trimEndOf '/' baseUrl, key⟩

/-- The request for a method of a model. -/
def request (b : GeminiBackend) (model method : String) (query : List (String × String))
    (body : Json) : Http.Request where
  url := b.baseUrl ++ "/models/" ++ model ++ ":" ++ method
  query := query
  headers := [("x-goog-api-key", b.key), ("content-type", "application/json")]
  body := body

/-- The chunks of the events of a stream, numbered through. -/
def chunks (now : Instant) :
    Gemini.ChunkMapper → List (Arrival Gemini.Response) → List (Arrival Chat.Chunk)
  | _, [] => []
  | m, .item r :: rest => let (chunk, m) := m.map r now; .item chunk :: chunks now m rest
  | m, .failed e :: rest => .failed e :: chunks now m rest
  | m, .silence :: rest => .silence :: chunks now m rest

/-- The backend as a provider of chat. -/
def provider {σ : Type} (b : GeminiBackend) (network : Network σ) (marked : Bool) : Provider σ :=
  let caller : Caller σ := ⟨network, .gemini, marked⟩
  { Provider.bare b.name with
    chat := fun r => do
      let answer ← caller.call .contents
        (b.request r.model "generateContent" [] r.toGemini.toJson)
      if answer.candidates.isEmpty then throw (.undecodable "no candidates")
      else return answer.toChat r.model (← Action.now)
    chatStream := fun r => do
      let events ← caller.stream Gemini.Response.ofJson?
        (b.request r.model "streamGenerateContent" [("alt", "sse")] r.toGemini.toJson)
      return chunks (← Action.now) (.start r.model) events }

end GeminiBackend

end Switchboard
