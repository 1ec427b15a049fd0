import Switchboard.Backend.Failure
import Switchboard.Backend.Network
import Switchboard.Provider.Basic
import Switchboard.Text.Blank

/-!
# Calling a backend

A request is sent, a failure status becomes an error, and the reply is decoded: as a
whole, or as a stream of JSON values. A backend may answer with a stream although none
was asked for; its text is then put together as one answer.
-/

namespace Switchboard

/-! ## Whole answers -/

/-- What the lines of an event stream carry, in order, blank data and the closing mark
left out; data that is not JSON does not count. -/
def chunksOfStream (body : String) : List Json :=
  (Text.split '\n' body).filterMap fun line => do
    let data ← Text.dropStart? "data:" (Text.trim line)
    let data := Text.trim data
    if data.isEmpty || data == "[DONE]" then none else Json.parseSorted? data

/-- The first choice of a chunk. -/
def firstChoice? (chunk : Json) : Option Json := do
  match ← chunk.get? "choices" with
  | .array items => items.head?
  | choices => choices.get? "0"

/-- The text that a choice adds. -/
def choiceText (choice : Json) : String :=
  (((choice.get? "delta").bind (Json.get? "content")).bind Json.string?).getD ""

/-- The finish reason of a choice, if it is not empty. -/
def choiceFinish? (choice : Json) : Option String :=
  ((choice.get? "finish_reason").bind Json.string?).filter fun s => !s.isEmpty

/-- The chunks of a stream as one answer: the texts joined, and the last finish reason. -/
def joinChunks (first : Json) (chunks : List Json) : Json :=
  let choices := chunks.filterMap firstChoice?
  let member (key : String) : Json := (first.get? key).getD .null
  .object
    [("choices", .array [.object
      [("finish_reason",
          .string ((choices.filterMap choiceFinish?).getLast?.getD "stop")),
        ("index", .nat 0),
        ("message", .object
          [("content", .string (String.join (choices.map choiceText))),
            ("role", .string "assistant")])]]),
      ("created", member "created"), ("id", member "id"), ("model", member "model"),
      ("object", .string "chat.completion"),
      ("usage", .object
        [("completion_tokens", .nat 0), ("prompt_tokens", .nat 0), ("total_tokens", .nat 0)])]

/-- Whether a body is an event stream. -/
def isEventStream (body : String) : Bool :=
  (Text.dropStart? "data:" (String.ofList (Text.trimStartChars body.toList))).isSome

/-- Decode a whole body. What is no answer is refused in the words of the library, but a stream
without chunks is not. -/
def decodeBody (words : Wording) (kind : AnswerKind) (body : String) : Except Error kind.Answer :=
  if isEventStream body then
    match chunksOfStream body with
    | [] => .error (.undecodable "no valid JSON chunks found in streaming response")
    | first :: rest =>
      let joined := joinChunks first (first :: rest)
      match kind.read joined with
      | some a => .ok a
      | none => .error (.undecodable (words.ofValue kind joined))
  else
    match (Json.parse? body).bind kind.read with
    | some a => .ok a
    | none => .error (.undecodable (words.ofText kind body))

/-! ## Streams -/

/-- What closes a stream of values. -/
def closingMark : String := "[DONE]"

/-- The values that payloads hold, up to the closing mark; a payload that holds none is
skipped. -/
def decodePayloads {α : Type} (read : Json → Option α) : List (Arrival String) → List (Arrival α)
  | [] => []
  | .item data :: rest =>
    if data = closingMark then []
    else match (Json.parse? data).bind read with
      | some a => .item a :: decodePayloads read rest
      | none => decodePayloads read rest
  | .failed e :: rest => .failed e :: decodePayloads read rest
  | .silence :: _ => [.silence]

/-! ## Calls -/

/-- A caller of backends: the network, the form of their errors and whether errors are
marked. -/
structure Caller (σ : Type) where
  network : Network σ
  errors : ErrorForm
  marked : Bool

namespace Caller

variable {σ α : Type}

/-- Send a request; anything but a success is an error. -/
def reply (c : Caller σ) (request : Http.Request) : Action σ Http.Reply := do
  let sent ← Action.onWorld fun world =>
    let (reply, world) := c.network.send request world
    (.ok reply, world)
  match sent with
  | .error detail => throw (.connection ("Failed to send request: " ++ detail))
  | .ok reply =>
    if reply.isSuccess then return reply
    else throw (.provider (.ofReply c.errors c.marked reply))

/-- Send a request and decode the whole answer. -/
def call (c : Caller σ) (kind : AnswerKind) (request : Http.Request) : Action σ kind.Answer := do
  let reply ← c.reply request
  Action.ofExcept (reply.body.text >>= decodeBody c.network.wording kind)

/-- Send a request and decode the answer as a stream of values. -/
def stream (c : Caller σ) (read : Json → Option α) (request : Http.Request) :
    Action σ (List (Arrival α)) := do
  let reply ← c.reply request
  return decodePayloads read reply.body.payloads

end Caller

end Switchboard
