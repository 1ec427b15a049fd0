import Switchboard.Claude.Response

/-!
# Errors

Why a request was not answered. Every error has a status, a kind and a code for the
client; `Error.display` is its text in reports and `Error.clientMessage` the text that
may be shown to clients.
-/

namespace Switchboard

/-- A failure that a provider reported, in the shape of a chat completion error. -/
structure ProviderError where
  status : Nat
  message : String
  kind : String
  code : Option String
  param : Option String
  deriving DecidableEq, Repr

/-- A failure of which only the status is known. -/
def ProviderError.ofStatus (status : Nat) : ProviderError where
  status := status
  message := "bad response status code " ++ toString status
  kind := "upstream_error"
  code := some "bad_response_status_code"
  param := some (toString status)

/-- Write a failure, with null for what it lacks. -/
def ProviderError.toJson (e : ProviderError) : Json := .object
  [("status", .nat e.status), ("message", .string e.message), ("type", .string e.kind),
    ("code", Json.orNull .string e.code), ("param", Json.orNull .string e.param)]

/-- Why a request was not answered. -/
inductive Error where
  /-- The request itself is not acceptable. -/
  | invalidRequest (message : String)
  /-- The content of the request is not allowed. -/
  | contentRejected (code message : String)
  /-- The channel cannot serve the operation. -/
  | channel (message : String)
  /-- The provider answered with a failure. -/
  | provider (error : ProviderError)
  /-- The provider could not be reached or stopped answering. -/
  | connection (detail : String)
  /-- The provider's answer could not be read. -/
  | undecodable (detail : String)
  /-- A failure of the gateway; a message may be shown, its absence may not. -/
  | internal (message : Option String)
  /-- A housekeeping request that was answered without a provider. -/
  | backgroundTask
  deriving DecidableEq, Repr

namespace Error

/-- The channel has no way to serve the operation. -/
def notImplemented : Error := .channel "channel not implemented"

/-- The status of the answer that carries the error. -/
def status : Error → Nat
  | invalidRequest _ | contentRejected _ _ => 400
  | channel _ => 501
  | provider e => if 100 ≤ e.status ∧ e.status ≤ 999 then e.status else 502
  | connection _ => 502
  | undecodable _ | internal _ => 500
  | backgroundTask => 200

/-- The kind of the error for clients. A provider tells its own. -/
def kind : Error → String
  | invalidRequest _ | contentRejected _ _ => "invalid_request"
  | channel _ => "channel_error"
  | provider e => e.kind
  | connection _ => "upstream_error"
  | undecodable _ => "decode_response_failed"
  | internal _ => "internal_error"
  | backgroundTask => "background_task"

/-- The code of the error for clients, if it has one. -/
def code : Error → Option String
  | invalidRequest _ => some "invalid_request"
  | contentRejected code _ => some code
  | channel _ => some "channel_not_implemented"
  | provider e => e.code
  | connection _ => some "http_request_failed"
  | undecodable _ => some "decode_response_failed"
  | internal _ => some "internal_error"
  | backgroundTask => none

/-- The text of the error in reports. -/
def display : Error → String
  | invalidRequest message => "Invalid request: " ++ message
  | contentRejected _ message => message
  | channel message => message
  | provider e => e.message
  | connection detail => "Connection error: " ++ detail
  | undecodable detail => "Failed to decode upstream response: " ++ detail
  | internal _ => "Internal server error"
  | backgroundTask => "Background task handled locally"

/-- The text of the error for clients. -/
def clientMessage : Error → String
  | internal (some message) => message
  | e => e.display

/-- The error in the shape of the Messages protocol. -/
def toClaude (e : Error) : Claude.ErrorResponse := ⟨"error", ⟨e.kind, e.clientMessage⟩⟩

/-- The error in the shape of the chat completion protocol. -/
def toChatJson (e : Error) : Json := Json.ofFields
  [Json.field "error" (Json.ofFields
    [Json.field "message" (.string e.clientMessage), Json.field "type" (.string e.kind),
      Json.fieldIf "code" .string e.code])]

end Error

end Switchboard
