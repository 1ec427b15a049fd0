import Switchboard.Json.Printer
import Switchboard.Claude.Response

/-!
# Stream events

A streamed message is a sequence of events: the start of the message, the life of one
block after another (start, deltas, stop), the closing delta with stop reason and usage,
and the stop. Pings and errors may come between. An event that is not modelled, or
does not fit its kind, is kept as the value it was.

A frame is an event as a server-sent event: a line with its name, a line with its data,
and a blank line.
-/

namespace Switchboard.Claude

open Json

/-- The message as it stands when its stream begins. -/
structure MessageStart where
  id : String
  kind : String
  role : Role
  content : List Block
  model : String
  stopReason : Option StopReason
  stopSequence : Option String
  usage : Usage
  deriving DecidableEq, Repr

/-- A message of the assistant without content. -/
def MessageStart.empty (id model : String) (usage : Usage) : MessageStart :=
  ⟨id, "message", .assistant, [], model, none, none, usage⟩

/-- A piece of a block. -/
inductive Delta where
  | text (text : String)
  | thinking (thinking : String)
  | signature (signature : String)
  | inputJson (partialJson : String)
  | other (value : Json)
  deriving DecidableEq, Repr

/-- An event of a streamed message. -/
inductive Event where
  | messageStart (message : MessageStart)
  | blockStart (index : Nat) (block : Block)
  | blockDelta (index : Nat) (delta : Delta)
  | blockStop (index : Nat)
  | messageDelta (stopReason : Option StopReason) (stopSequence : Option String) (usage : Usage)
  | messageStop
  | ping
  | error (error : ErrorBody)
  | other (value : Json)
  deriving DecidableEq, Repr

/-! ## Reading -/

/-- The start of a message. Beside its role an empty object counts as nothing. -/
def MessageStart.ofJson? (v : Json) : Option MessageStart := do
  let r ← record? Response.fieldNames v
  return {
    id := ← r.required "id" string?
    kind := ← r.orDefault "type" "message" string?
    role := ← r.required "role" (Role.read? fun beside => beside = .null ∨ beside = .object [])
    content := ← r.orDefault "content" [] (listOf? fun b => some (Block.ofJson b))
    model := ← r.required "model" string?
    stopReason := ← r.optional "stop_reason" StopReason.ofJson?
    stopSequence := ← r.optional "stop_sequence" string?
    usage := ← r.orDefault "usage" (Usage.of 0 0) Usage.ofJson? }

namespace Delta

/-- The kinds of delta that are modelled, each with the field it carries. -/
def forms : List (String × String) :=
  [("text_delta", "text"), ("thinking_delta", "thinking"), ("signature_delta", "signature"),
    ("input_json_delta", "partial_json")]

/-- A delta of a modelled kind with the field that fits it. -/
def ofForm? (form : String) (v : Json) : Option Delta := do
  let fieldName ← forms.lookup form
  let r ← record? [fieldName] v
  let s ← r.required fieldName string?
  match form with
  | "text_delta" => return .text s
  | "thinking_delta" => return .thinking s
  | "signature_delta" => return .signature s
  | _ => return .inputJson s

/-- Read a delta. Every value is one. -/
def ofJson (v : Json) : Delta :=
  match (tagged? "type" (forms.map (·.1)) true v).bind fun (form, rest) => ofForm? form rest with
  | some delta => delta
  | none => .other v.sorted

end Delta

namespace Event

/-- The kinds of event that are modelled. -/
def forms : List String :=
  ["message_start", "content_block_start", "content_block_delta", "content_block_stop",
    "message_delta", "message_stop", "ping", "error"]

/-- The stop reason and the stop sequence of a closing delta. -/
def closing? (v : Json) : Option (Option StopReason × Option String) := do
  let r ← record? ["stop_reason", "stop_sequence"] v
  return (← r.optional "stop_reason" StopReason.ofJson?, ← r.optional "stop_sequence" string?)

/-- An event of a modelled kind with fields that fit it. -/
def ofForm? (form : String) (v : Json) : Option Event :=
  match form with
  | "message_start" => do
    let r ← record? ["message"] v
    return .messageStart (← r.required "message" MessageStart.ofJson?)
  | "content_block_start" => do
    let r ← record? ["index", "content_block"] v
    return .blockStart (← r.required "index" u32?)
      (← r.required "content_block" fun b => some (Block.ofJson b))
  | "content_block_delta" => do
    let r ← record? ["index", "delta"] v
    return .blockDelta (← r.required "index" u32?)
      (← r.required "delta" fun d => some (Delta.ofJson d))
  | "content_block_stop" => do
    let r ← record? ["index"] v
    return .blockStop (← r.required "index" u32?)
  | "message_delta" => do
    let r ← record? ["delta", "usage"] v
    let (stopReason, stopSequence) ← r.required "delta" closing?
    return .messageDelta stopReason stopSequence
      (← r.orDefault "usage" (Usage.of 0 0) Usage.ofJson?)
  | "message_stop" => (noFields? v).map fun _ => .messageStop
  | "ping" => (noFields? v).map fun _ => .ping
  | "error" => do
    let r ← record? ["error"] v
    return .error (← r.required "error" ErrorBody.ofJson?)
  | _ => none

/-- Read an event. Every value is one. -/
def ofJson (v : Json) : Event :=
  match (tagged? "type" forms true v).bind fun (form, rest) => ofForm? form rest with
  | some event => event
  | none => .other v.sorted

end Event

/-! ## Writing -/

/-- Write the start of a message, with null for the reason and the sequence that it lacks. -/
def MessageStart.toJson (m : MessageStart) : Json := ofFields
  [field "id" (.string m.id), field "type" (.string m.kind), field "role" m.role.toJson,
    field "content" (Json.ofList Block.toJson m.content), field "model" (.string m.model),
    field "stop_reason" (orNull StopReason.toJson m.stopReason),
    field "stop_sequence" (orNull .string m.stopSequence), field "usage" m.usage.toJson]

/-- Write a delta, its kind first. -/
def Delta.toJson : Delta → Json
  | .text s => ofFields [field "type" (.string "text_delta"), field "text" (.string s)]
  | .thinking s => ofFields
    [field "type" (.string "thinking_delta"), field "thinking" (.string s)]
  | .signature s => ofFields
    [field "type" (.string "signature_delta"), field "signature" (.string s)]
  | .inputJson s => ofFields
    [field "type" (.string "input_json_delta"), field "partial_json" (.string s)]
  | other value => value

namespace Event

/-- The name of the event on the wire. -/
def name : Event → String
  | messageStart _ => "message_start"
  | blockStart _ _ => "content_block_start"
  | blockDelta _ _ => "content_block_delta"
  | blockStop _ => "content_block_stop"
  | messageDelta _ _ _ => "message_delta"
  | messageStop => "message_stop"
  | ping => "ping"
  | error _ => "error"
  | other value => ((value.get? "type").bind string?).getD "unknown"

/-- Write an event, its kind first. -/
def toJson : Event → Json
  | messageStart message => ofFields
    [field "type" (.string "message_start"), field "message" message.toJson]
  | blockStart index block => ofFields
    [field "type" (.string "content_block_start"), field "index" (.nat index),
      field "content_block" block.toJson]
  | blockDelta index delta => ofFields
    [field "type" (.string "content_block_delta"), field "index" (.nat index),
      field "delta" delta.toJson]
  | blockStop index => ofFields
    [field "type" (.string "content_block_stop"), field "index" (.nat index)]
  | messageDelta stopReason stopSequence usage => ofFields
    [field "type" (.string "message_delta"),
      field "delta" (ofFields [field "stop_reason" (orNull StopReason.toJson stopReason),
        field "stop_sequence" (orNull .string stopSequence)]),
      field "usage" usage.toJson]
  | messageStop => ofFields [field "type" (.string "message_stop")]
  | ping => ofFields [field "type" (.string "ping")]
  | error e => ofFields [field "type" (.string "error"), field "error" e.toJson]
  | other value => value

/-- The event as a server-sent event. -/
def frame (e : Event) : String :=
  "event: " ++ e.name ++ "\ndata: " ++ e.toJson.render ++ "\n\n"

end Event

instance : Codec Event := ⟨fun v => some (Event.ofJson v), Event.toJson⟩

end Switchboard.Claude
