import Switchboard.Claude.Request

/-!
# Messages responses

A finished message: its content blocks, why the model stopped and how many tokens were
used. Usage keeps counters that are not modelled beside the modelled ones.
-/

namespace Switchboard.Claude

open Json

/-- Why the model stopped. A reason that is not modelled is kept by its name. -/
inductive StopReason where
  | endTurn
  | maxTokens
  | stopSequence
  | toolUse
  | pauseTurn
  | refusal
  | other (name : String)
  deriving DecidableEq, Repr

/-- How many tokens a message has, and how many of them a cache took or gave. What else is counted
is kept as it came. -/
structure Usage where
  inputTokens : Nat
  outputTokens : Nat
  cacheCreationInputTokens : Option Nat
  cacheReadInputTokens : Option Nat
  extra : List (String × Json)
  deriving DecidableEq, Repr

/-- Usage that counts input and output tokens only. -/
def Usage.of (inputTokens outputTokens : Nat) : Usage := ⟨inputTokens, outputTokens, none, none, []⟩

/-- A finished message. -/
structure Response where
  id : String
  kind : String
  role : Role
  content : List Block
  model : String
  stopReason : Option StopReason
  stopSequence : Option String
  usage : Usage
  deriving DecidableEq, Repr

/-- An error : its kind, and what it says. -/
structure ErrorBody where
  kind : String
  message : String
  deriving DecidableEq, Repr

/-- The body of an answer that reports an error. -/
structure ErrorResponse where
  kind : String
  error : ErrorBody
  deriving DecidableEq, Repr

/-! ## Reading -/

namespace StopReason

/-- The reasons that are modelled, by name. -/
def named : List (String × StopReason) :=
  [("end_turn", endTurn), ("max_tokens", maxTokens), ("stop_sequence", stopSequence),
    ("tool_use", toolUse), ("pause_turn", pauseTurn), ("refusal", refusal)]

/-- Read a reason. Any text is one. -/
def ofJson? (v : Json) : Option StopReason :=
  match name? isNull (named.map (·.1)) v with
  | some name => named.lookup name
  | none => v.string?.map other

/-- How the reason is written. -/
def name : StopReason → String
  | endTurn => "end_turn"
  | maxTokens => "max_tokens"
  | stopSequence => "stop_sequence"
  | toolUse => "tool_use"
  | pauseTurn => "pause_turn"
  | refusal => "refusal"
  | .other s => s

/-- Write a reason. -/
def toJson (r : StopReason) : Json := .string r.name

end StopReason

/-- The counters that are modelled. -/
def Usage.fieldNames : List String :=
  ["input_tokens", "output_tokens", "cache_creation_input_tokens", "cache_read_input_tokens"]

/-- Read usage, as an object only. Input and output tokens are zero where they are absent. -/
def Usage.ofJson? (v : Json) : Option Usage := do
  let (r, extra) ← openRecord? fieldNames v
  return ⟨← r.orDefault "input_tokens" 0 u32?, ← r.orDefault "output_tokens" 0 u32?,
    ← r.optional "cache_creation_input_tokens" u32?,
    ← r.optional "cache_read_input_tokens" u32?, extra⟩

/-- The fields of a message, in the order in which they are written. -/
def Response.fieldNames : List String :=
  ["id", "type", "role", "content", "model", "stop_reason", "stop_sequence", "usage"]

/-- Read a message. A block that is of no modelled form is kept as it is. -/
def Response.ofJson? (v : Json) : Option Response := do
  let r ← record? fieldNames v
  return {
    id := ← r.required "id" string?
    kind := ← r.orDefault "type" "message" string?
    role := ← r.required "role" Role.ofJson?
    content := ← r.required "content" (listOf? fun b => some (Block.ofJson b))
    model := ← r.required "model" string?
    stopReason := ← r.nullable "stop_reason" StopReason.ofJson?
    stopSequence := ← r.optional "stop_sequence" string?
    usage := ← r.orDefault "usage" (Usage.of 0 0) Usage.ofJson? }

/-- Read an error. Both fields must be there. -/
def ErrorBody.ofJson? (v : Json) : Option ErrorBody := do
  let r ← record? ["type", "message"] v
  return ⟨← r.required "type" string?, ← r.required "message" string?⟩

/-- Read the body of an answer that reports an error. -/
def ErrorResponse.ofJson? (v : Json) : Option ErrorResponse := do
  let r ← record? ["type", "error"] v
  return ⟨← r.required "type" string?, ← r.required "error" ErrorBody.ofJson?⟩

/-! ## Writing -/

/-- Write usage, what is not modelled behind what is. -/
def Usage.toJson (u : Usage) : Json := ofFields
  ([field "input_tokens" (.nat u.inputTokens), field "output_tokens" (.nat u.outputTokens),
    fieldIf "cache_creation_input_tokens" .nat u.cacheCreationInputTokens,
    fieldIf "cache_read_input_tokens" .nat u.cacheReadInputTokens] ++ u.extra.map some)

/-- Write a message, with null for a reason and a sequence that it lacks. -/
def Response.toJson (r : Response) : Json := ofFields
  [field "id" (.string r.id), field "type" (.string r.kind), field "role" r.role.toJson,
    field "content" (Json.ofList Block.toJson r.content), field "model" (.string r.model),
    field "stop_reason" (orNull StopReason.toJson r.stopReason),
    field "stop_sequence" (orNull .string r.stopSequence), field "usage" r.usage.toJson]

/-- Write an error. -/
def ErrorBody.toJson (e : ErrorBody) : Json := ofFields
  [field "type" (.string e.kind), field "message" (.string e.message)]

/-- Write the body of an answer that reports an error. -/
def ErrorResponse.toJson (e : ErrorResponse) : Json := ofFields
  [field "type" (.string e.kind), field "error" e.error.toJson]

instance : Codec Usage := ⟨Usage.ofJson?, Usage.toJson⟩

instance : Codec Response := ⟨Response.ofJson?, Response.toJson⟩

instance : Codec ErrorResponse := ⟨ErrorResponse.ofJson?, ErrorResponse.toJson⟩

end Switchboard.Claude
