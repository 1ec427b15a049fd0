/-!
# Time and identifiers

Time is a value that callers hand in. Identifiers are made from the time and, for tool
calls, from a count, so that two of them are never equal.
-/

namespace Switchboard

/-- A point in time, in nanoseconds since the epoch. -/
structure Instant where
  nanoseconds : Nat
  deriving DecidableEq, Repr

namespace Instant

/-- The milliseconds since the epoch, rounded down. -/
def milliseconds (t : Instant) : Nat := t.nanoseconds / 1000000

/-- The seconds since the epoch, rounded down. -/
def seconds (t : Instant) : Nat := t.nanoseconds / 1000000000

/-- The id of a message that starts now. -/
def messageId (t : Instant) : String := "msg_" ++ toString t.milliseconds

/-- The id of a message that answers a background task now. -/
def backgroundMessageId (t : Instant) : String := "msg_bg_" ++ toString t.milliseconds

/-- The id of a chat completion that is made now. -/
def completionId (t : Instant) : String := "chatcmpl-" ++ toString t.milliseconds

end Instant

/-- The time, and how many ids of tool calls have been made. -/
structure Mint where
  now : Instant
  count : Nat
  deriving DecidableEq, Repr

/-- A fresh id for a tool call that came without one. -/
def Mint.toolCallId (m : Mint) : String × Mint :=
  ("call_" ++ toString m.now.nanoseconds ++ "_" ++ toString m.count,
    { m with count := m.count + 1 })

end Switchboard
