import Switchboard.Backend.Chat

/-!
# Messages backends

Backends that speak the Messages protocol at one address. The key is sent as an API key
together with the version of the protocol, or as a bearer credential.
-/

namespace Switchboard

/-- How a key is shown to a backend. -/
inductive KeyStyle where
  | apiKey
  | bearer
  deriving DecidableEq, Repr

/-- A backend at one address, and the key to it. -/
structure MessagesBackend where
  name : String
  url : String
  key : String
  style : KeyStyle
  deriving DecidableEq, Repr

namespace MessagesBackend

/-- The version of the protocol. -/
def version : String := "2023-06-01"

/-- The request with a body, to which the key is shown in the backend's style. -/
def request (b : MessagesBackend) (r : Claude.Request) : Http.Request :=
  match b.style with
  | .bearer => .bearer b.url b.key r.toJson
  | .apiKey =>
    { url := b.url
      query := []
      headers := [("x-api-key", b.key), ("anthropic-version", version),
        ("content-type", "application/json")]
      body := r.toJson }

/-- The backend as a provider of messages. -/
def provider {σ : Type} (b : MessagesBackend) (network : Network σ) (marked : Bool) :
    Provider σ :=
  let caller : Caller σ := ⟨network, .messages, marked⟩
  { Provider.bare b.name with
    message := fun r => caller.call .message (b.request { r with stream := some false })
    messageStream := fun r => do
      return .events (← caller.stream (fun v => some (Claude.Event.ofJson v))
        (b.request { r with stream := some true })) }

end MessagesBackend

end Switchboard
