import Switchboard.Json.Record

/-!
# The responses protocol

A request with one input text, its answer, and the events of a streamed answer, which
carry a kind and free data.
-/

namespace Switchboard.Responses

open Json

/-- A request with one input text, and how many tokens the answer may have. -/
structure Request where
  model : String
  input : String
  maxOutputTokens : Option Nat
  stream : Bool
  deriving DecidableEq, Repr

/-- How many tokens a request and its answer have. -/
structure Usage where
  inputTokens : Nat
  outputTokens : Nat
  totalTokens : Nat
  deriving DecidableEq, Repr

/-- An answer. What the model put out is not looked into. -/
structure Response where
  id : String
  status : Option String
  model : String
  output : List Json
  usage : Option Usage
  deriving DecidableEq, Repr

/-- An event of a streamed answer : its kind, and the members beside it. -/
structure Event where
  kind : String
  data : List (String × Json)
  deriving DecidableEq, Repr

/-- Read a request. Without `stream` the answer is to come whole. -/
def Request.ofJson? (v : Json) : Option Request := do
  let r ← record? ["model", "input", "max_output_tokens", "stream"] v
  return ⟨← r.required "model" string?, ← r.required "input" string?,
    ← r.optional "max_output_tokens" u32?, ← r.orDefault "stream" false bool?⟩

/-- Read usage. A count that is absent is zero. -/
def Usage.ofJson? (v : Json) : Option Usage := do
  let r ← record? ["input_tokens", "output_tokens", "total_tokens"] v
  return ⟨← r.orDefault "input_tokens" 0 u32?, ← r.orDefault "output_tokens" 0 u32?,
    ← r.orDefault "total_tokens" 0 u32?⟩

/-- Read an answer. No field has to be there. -/
def Response.ofJson? (v : Json) : Option Response := do
  let r ← record? ["id", "status", "model", "output", "usage"] v
  return ⟨← r.orDefault "id" "" string?, ← r.optional "status" string?,
    ← r.orDefault "model" "" string?, ← r.orDefault "output" [] (listOf? free?),
    ← r.optional "usage" Usage.ofJson?⟩

/-- Read an event. Only its kind has to be there. -/
def Event.ofJson? (v : Json) : Option Event := do
  let (r, data) ← openRecord? ["type"] v
  return ⟨← r.required "type" string?, data⟩

/-- Write a request. `stream` is written if it is wanted. -/
def Request.toJson (r : Request) : Json := ofFields
  [field "model" (.string r.model), field "input" (.string r.input),
    fieldIf "max_output_tokens" .nat r.maxOutputTokens,
    if r.stream then field "stream" (.bool true) else none]

/-- Write usage, with all its counts. -/
def Usage.toJson (u : Usage) : Json := ofFields
  [field "input_tokens" (.nat u.inputTokens), field "output_tokens" (.nat u.outputTokens),
    field "total_tokens" (.nat u.totalTokens)]

/-- Write an answer, with null for what it lacks. -/
def Response.toJson (r : Response) : Json := ofFields
  [field "id" (.string r.id), field "status" (orNull .string r.status),
    field "model" (.string r.model), field "output" (.array r.output),
    field "usage" (orNull Usage.toJson r.usage)]

/-- Write an event, its kind before the other members. -/
def Event.toJson (e : Event) : Json := .object (("type", .string e.kind) :: e.data)

instance : Codec Request := ⟨Request.ofJson?, Request.toJson⟩

instance : Codec Response := ⟨Response.ofJson?, Response.toJson⟩

instance : Codec Event := ⟨Event.ofJson?, Event.toJson⟩

end Switchboard.Responses
