import Switchboard.Backend.Answer
import Switchboard.Http.Message

/-!
# The network

Where requests go. A server replies or cannot be reached. The invocation service runs
hosted models: it answers with the bytes of an answer, or with a stream of parts, or
reports a failure of its own. What comes back is read by a library with words of its own.
-/

namespace Switchboard

/-- A call of the invocation service. -/
structure Invocation where
  endpoint : Option String
  region : String
  accessKeyId : String
  secretAccessKey : String
  sessionToken : Option String
  model : String
  body : Json
  deriving DecidableEq, Repr

/-- Why an invocation failed. -/
inductive InvocationFailure where
  /-- The service reported a failure. -/
  | service (code message : Option String)
  /-- There was no report of the service. -/
  | other (detail : String)
  deriving DecidableEq, Repr

/-- The part of a streamed answer: bytes, or something without them. -/
abbrev InvocationPart := Option (List UInt8)

/-- A network with a world of type `σ`. A request that no server replies to fails with
the reason. -/
structure Network (σ : Type) where
  send : Http.Request → σ → Except String Http.Reply × σ
  invoke : Invocation → σ → Except InvocationFailure (List UInt8) × σ
  invokeStream : Invocation → σ → Except InvocationFailure (List (Arrival InvocationPart)) × σ
  /-- In what words an answer is refused. -/
  wording : Wording := .plain

end Switchboard
