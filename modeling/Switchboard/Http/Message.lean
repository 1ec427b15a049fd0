import Switchboard.Http.ServerEvent
import Switchboard.Relay.Delivery
import Switchboard.Text.Search
import Switchboard.Text.Utf8

/-!
# Requests and replies

Requests carry a JSON body. The body of a reply is what arrived of it and how it ended:
complete, broken off or silent. It is read as a whole, as bytes or as text, or as a
stream of server-sent events.
-/

namespace Switchboard.Http

/-- A request to a backend. -/
structure Request where
  url : String
  query : List (String × String)
  headers : List (String × String)
  body : Json
  deriving DecidableEq, Repr

/-- How a body ends. -/
inductive Ending where
  | complete
  | broken (detail : String)
  | silent
  deriving DecidableEq, Repr

/-- The bytes that arrived of a body, and how it ended. -/
structure Body where
  bytes : List UInt8
  ending : Ending
  deriving DecidableEq, Repr

/-- A reply of a backend. -/
structure Reply where
  status : Nat
  contentType : Option String
  body : Body
  deriving DecidableEq, Repr

namespace Reply

/-- Whether the status says that the request was answered. -/
def isSuccess (r : Reply) : Bool := 200 ≤ r.status && r.status ≤ 299

/-- Whether the reply says that it is JSON. -/
def isJson (r : Reply) : Bool := r.contentType.any fun t => Text.contains t "application/json"

end Reply

namespace Body

/-- All bytes; an incomplete body counts as empty. -/
def bytesIfComplete (b : Body) : List UInt8 := if b.ending = .complete then b.bytes else []

/-- The body as text. Reading one that falls silent would not come to an end, which is told here as
a connection that broke. -/
def text (b : Body) : Except Error String :=
  match b.ending with
  | .complete =>
    .ok (String.ofList (Text.Utf8.dropMark (Text.Utf8.tolerant b.bytes).toList))
  | .broken detail => .error (.connection ("Failed to read response body: " ++ detail))
  | .silent => .error (.connection "Failed to read response body: it does not end")

/-- What comes behind the last event of a stream. One that is no text is broken off where it ceases
to be one. How that is worded depends on the parts in which it came, and nothing looks at it. -/
def streamEnd (b : Body) : List (Arrival String) :=
  match b.ending with
  | .complete =>
    if (Text.Utf8.text? b.bytes).isSome then []
    else [.failed (.connection "Stream error: the text is not UTF-8")]
  | .broken detail => [.failed (.connection ("Stream error: " ++ detail))]
  | .silent => [.silence]

/-- The data of the events of a stream. -/
def payloads (b : Body) : List (Arrival String) :=
  (ServerEvent.ofChars (Text.Utf8.dropMark (Text.Utf8.validStart b.bytes))).map
    (fun e => .item e.data) ++ b.streamEnd

end Body

end Switchboard.Http
