import Switchboard.Backend.Network
import Switchboard.Config.Settings
import Switchboard.Json.Printer

/-!
# The surroundings of the monitor

The monitor works with a store of channels, a journal of what probes used, a notifier
that delivers reports, and a watch. They are parts of a world of type `σ`, and a store
and a notifier may fail with a message.
-/

namespace Switchboard.Health

/-- What a probe used, for the journal. Times are in nanoseconds. -/
structure Record where
  userId : Nat
  channelId : Nat
  model : String
  promptTokens : Nat
  completionTokens : Nat
  quota : Int
  content : String
  elapsed : Nat
  stream : Bool
  metadata : List (String × String)
  clientAddress : String
  deriving DecidableEq, Repr

/-- The record with its metadata in key order and its time in milliseconds. -/
def Record.toJson (r : Record) : Json := .object
  [("user_id", .nat r.userId), ("channel_id", .nat r.channelId), ("model", .string r.model),
    ("prompt_tokens", .nat r.promptTokens), ("completion_tokens", .nat r.completionTokens),
    ("quota", .int r.quota), ("content", .string r.content),
    ("elapsed_ms", .nat (r.elapsed / 1000000)), ("stream", .bool r.stream),
    ("metadata", .object (sortMembers (r.metadata.map fun m => (m.1, .string m.2)))),
    ("client_address", .string r.clientAddress)]

/-- Where channels are looked up and changed. -/
structure Store (σ : Type) where
  channel : Nat → σ → Except String (Option Channel) × σ
  channels : σ → Except String (List Channel) × σ
  setStatus : Nat → ChannelStatus → String → σ → Except String Unit × σ
  setResponseTime : Nat → Nat → σ → Except String Unit × σ

/-- What the monitor works with. -/
structure Surroundings (σ : Type) where
  network : Network σ
  store : Store σ
  /-- Append a record to the journal. -/
  journal : Record → σ → σ
  /-- Deliver a report with a title. -/
  notify : String → String → σ → Except String Unit × σ
  /-- Read the watch, in nanoseconds. -/
  watch : σ → Nat × σ
  /-- Let a time pass, in nanoseconds. -/
  sleep : Nat → σ → σ

end Switchboard.Health
