import Switchboard.Relay.Basic

/-!
# Relaying events as they are

A provider that speaks the Messages protocol is relayed verbatim up to the stop of the
message. The relay only keeps account of the usage it forwards.
-/

namespace Switchboard.Relay

open Claude (Event)

/-- A relay that passes events on. -/
structure Verbatim where
  closed : Bool
  inputTokens : Nat
  usage : Option Claude.Usage
  deriving DecidableEq, Repr

namespace Verbatim

/-- A relay that has seen nothing. -/
def start : Verbatim := ⟨false, 0, none⟩

/-- Keep account of an event. A closing delta without input tokens leaves those of the
start of the message. -/
def note (r : Verbatim) : Event → Verbatim
  | .messageStart message => { r with inputTokens := message.usage.inputTokens }
  | .messageDelta _ _ usage =>
    let input := if 0 < usage.inputTokens then usage.inputTokens else r.inputTokens
    { r with usage := some (.of input usage.outputTokens) }
  | .messageStop => { r with closed := true }
  | _ => r

instance : Relay Verbatim Event where
  accept event := fun r => if r.closed then (r, []) else (r.note event, [event])
  finish := Step.silent fun r => { r with closed := true }
  close r := { r with closed := true }
  isClosed r := r.closed
  usage? r := r.usage

end Verbatim

end Switchboard.Relay
