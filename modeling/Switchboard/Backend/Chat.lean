import Switchboard.Backend.Call

/-!
# Chat completion backends

Backends that speak the chat completion protocol under a base address, with the key as a
bearer credential.
-/

namespace Switchboard

/-- A JSON request with a bearer credential. -/
def Http.Request.bearer (url key : String) (body : Json) : Http.Request where
  url := url
  query := []
  headers := [("authorization", "Bearer " ++ key), ("content-type", "application/json")]
  body := body

/-- Where a chat completion backend is, and what opens it. -/
structure ChatBackend where
  name : String
  baseUrl : String
  key : String
  deriving DecidableEq, Repr

namespace ChatBackend

/-- A backend at an address, which may end in slashes. -/
def ofAddress (name baseUrl key : String) : ChatBackend := ⟨name, Text.trimEndOf '/' baseUrl, key⟩

/-- The request for an operation of the backend. -/
def request (b : ChatBackend) (path : String) (body : Json) : Http.Request :=
  .bearer (b.baseUrl ++ path) b.key body

/-- The backend as a provider of everything but messages. -/
def provider {σ : Type} (b : ChatBackend) (network : Network σ) (marked : Bool) : Provider σ :=
  let caller : Caller σ := ⟨network, .chat, marked⟩
  { Provider.bare b.name with
    chat := fun r => caller.call .chat
      (b.request "/chat/completions" { r with stream := false }.toJson)
    chatStream := fun r => caller.stream Chat.Chunk.ofJson?
      (b.request "/chat/completions" { r with stream := true }.toJson)
    embed := fun r => caller.call .embedding (b.request "/embeddings" r.toJson)
    draw := fun r => caller.call .image (b.request "/images/generations" r.toJson)
    respond := fun r => caller.call .responses
      (b.request "/responses" { r with stream := false }.toJson)
    respondStream := fun r => caller.stream Responses.Event.ofJson?
      (b.request "/responses" { r with stream := true }.toJson) }

end ChatBackend

end Switchboard
