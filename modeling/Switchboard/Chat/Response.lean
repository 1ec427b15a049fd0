import Switchboard.Chat.Request

/-!
# Chat completion responses

A finished answer, one message per choice. A finish reason that is the empty text says
nothing and is read as absent.
-/

namespace Switchboard.Chat

open Json

/-- Why the model stopped. A reason that is not modelled is kept by its name. -/
inductive FinishReason where
  | stop
  | length
  | toolCalls
  | contentFilter
  | functionCall
  | other (name : String)
  deriving DecidableEq, Repr

/-- How many tokens a prompt and its completion have, and both together as they were told. -/
structure Usage where
  promptTokens : Nat
  completionTokens : Nat
  totalTokens : Nat
  deriving DecidableEq, Repr

/-- Usage whose total is the sum. The counts have 32 bits, and a sum beyond these wraps around, as
it does where overflow is not checked for. A build that checks for it would break off. -/
def Usage.of (promptTokens completionTokens : Nat) : Usage :=
  ⟨promptTokens, completionTokens, (promptTokens + completionTokens) % (u32Max + 1)⟩

/-- One of the answers to choose from. -/
structure Choice where
  index : Nat
  message : Message
  finishReason : Option FinishReason
  deriving DecidableEq, Repr

/-- A finished answer. -/
structure Response where
  id : String
  object : String
  created : Nat
  model : String
  choices : List Choice
  usage : Option Usage
  deriving DecidableEq, Repr

/-! ## Reading -/

namespace FinishReason

/-- The reasons that are modelled, by name. -/
def named : List (String × FinishReason) :=
  [("stop", stop), ("length", length), ("tool_calls", toolCalls),
    ("content_filter", contentFilter), ("function_call", functionCall)]

/-- Read a reason. Any text is one. -/
def ofJson? (v : Json) : Option FinishReason :=
  match name? isNull (named.map (·.1)) v with
  | some name => named.lookup name
  | none => v.string?.map other

/-- How the reason is written. -/
def name : FinishReason → String
  | stop => "stop"
  | length => "length"
  | toolCalls => "tool_calls"
  | contentFilter => "content_filter"
  | functionCall => "function_call"
  | .other s => s

/-- Write a reason. -/
def toJson (r : FinishReason) : Json := .string r.name

end FinishReason

/-- The finish reason of a record, the empty text being none. -/
def finishReason? (r : Record) : Option (Option FinishReason) := do
  let reason ← r.optional "finish_reason" FinishReason.ofJson?
  return reason.filter fun f => f != .other ""

/-- Read usage. A count that is absent is zero, and the total need not be the sum. -/
def Usage.ofJson? (v : Json) : Option Usage := do
  let r ← record? ["prompt_tokens", "completion_tokens", "total_tokens"] v
  return ⟨← r.orDefault "prompt_tokens" 0 u32?, ← r.orDefault "completion_tokens" 0 u32?,
    ← r.orDefault "total_tokens" 0 u32?⟩

/-- Read a choice. It must have a message. -/
def Choice.ofJson? (v : Json) : Option Choice := do
  let r ← record? ["index", "message", "finish_reason"] v
  return ⟨← r.orDefault "index" 0 u32?, ← r.required "message" Message.ofJson?,
    ← finishReason? r⟩

/-- The fields of an answer, in the order in which they are written. -/
def Response.fieldNames : List String :=
  ["id", "object", "created", "model", "choices", "usage"]

/-- Read an answer. No field has to be there. -/
def Response.ofJson? (v : Json) : Option Response := do
  let r ← record? fieldNames v
  return {
    id := ← r.orDefault "id" "" string?
    object := ← r.orDefault "object" "" string?
    created := ← r.orDefault "created" 0 u64?
    model := ← r.orDefault "model" "" string?
    choices := ← r.orDefault "choices" [] (listOf? Choice.ofJson?)
    usage := ← r.optional "usage" Usage.ofJson? }

/-! ## Writing -/

/-- Write usage. -/
def Usage.toJson (u : Usage) : Json := ofFields
  [field "prompt_tokens" (.nat u.promptTokens),
    field "completion_tokens" (.nat u.completionTokens),
    field "total_tokens" (.nat u.totalTokens)]

/-- Write a choice, with null for a reason that it lacks. -/
def Choice.toJson (c : Choice) : Json := ofFields
  [field "index" (.nat c.index), field "message" c.message.toJson,
    field "finish_reason" (orNull FinishReason.toJson c.finishReason)]

/-- Write an answer, with null for usage that it lacks. -/
def Response.toJson (r : Response) : Json := ofFields
  [field "id" (.string r.id), field "object" (.string r.object), field "created" (.nat r.created),
    field "model" (.string r.model), field "choices" (Json.ofList Choice.toJson r.choices),
    field "usage" (orNull Usage.toJson r.usage)]

instance : Codec Response := ⟨Response.ofJson?, Response.toJson⟩

end Switchboard.Chat
