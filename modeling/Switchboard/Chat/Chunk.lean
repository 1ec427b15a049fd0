import Switchboard.Chat.Response

/-!
# Chat completion chunks

A streamed answer is a sequence of chunks, each with a piece of text, of reasoning or
of tool calls per choice. The pieces of one tool call share its index; the first of
them usually carries the id and the name.
-/

namespace Switchboard.Chat

open Json

/-- A piece of a tool call. -/
structure ToolCallDelta where
  index : Nat
  id : Option String
  isFunction : Bool
  function : Option (Option String × Option String)
  deriving DecidableEq, Repr

namespace ToolCallDelta

/-- The name of the function, if this piece carries it. -/
def name? (d : ToolCallDelta) : Option String := d.function.bind (·.1)

/-- The arguments in this piece. -/
def arguments? (d : ToolCallDelta) : Option String := d.function.bind (·.2)

end ToolCallDelta

/-- A piece of reasoning with its signature. -/
structure ThinkingDelta where
  content : Option String
  signature : Option String
  deriving DecidableEq, Repr

/-- What a chunk adds to an answer. Reasoning comes as text, or as text with a signature. -/
structure Delta where
  role : Option Role
  content : Option String
  reasoningContent : Option String
  thinking : Option ThinkingDelta
  toolCalls : Option (List ToolCallDelta)
  deriving DecidableEq, Repr

/-- A delta that adds nothing. -/
def Delta.empty : Delta := ⟨none, none, none, none, none⟩

/-- What a chunk adds to one of the answers. -/
structure ChunkChoice where
  index : Nat
  delta : Delta
  finishReason : Option FinishReason
  deriving DecidableEq, Repr

/-- A piece of a streamed answer. -/
structure Chunk where
  id : String
  object : String
  created : Nat
  model : String
  choices : List ChunkChoice
  usage : Option Usage
  deriving DecidableEq, Repr

/-! ## Reading -/

/-- The name and the arguments in a piece of a call. -/
def ToolCallDelta.function? (v : Json) : Option (Option String × Option String) := do
  let r ← record? ["name", "arguments"] v
  return (← r.optional "name" string?, ← r.optional "arguments" string?)

/-- Read a piece of a call. Pieces without an index are of the first call. -/
def ToolCallDelta.ofJson? (v : Json) : Option ToolCallDelta := do
  let r ← record? ["index", "id", "type", "function"] v
  return {
    index := ← r.orDefault "index" 0 u32?
    id := ← r.optional "id" string?
    isFunction := (← r.optional "type" functionKind?).isSome
    function := ← r.optional "function" function? }

/-- Read a piece of reasoning. Both fields may be absent. -/
def ThinkingDelta.ofJson? (v : Json) : Option ThinkingDelta := do
  let r ← record? ["content", "signature"] v
  return ⟨← r.optional "content" string?, ← r.optional "signature" string?⟩

/-- Read a delta. No field has to be there. -/
def Delta.ofJson? (v : Json) : Option Delta := do
  let r ← record? ["role", "content", "reasoning_content", "thinking", "tool_calls"] v
  return {
    role := ← r.optional "role" Role.ofJson?
    content := ← r.optional "content" string?
    reasoningContent := ← r.optional "reasoning_content" string?
    thinking := ← r.optional "thinking" ThinkingDelta.ofJson?
    toolCalls := ← r.optional "tool_calls" (listOf? ToolCallDelta.ofJson?) }

/-- Read what is added to an answer. No field has to be there. -/
def ChunkChoice.ofJson? (v : Json) : Option ChunkChoice := do
  let r ← record? ["index", "delta", "finish_reason"] v
  return ⟨← r.orDefault "index" 0 u32?, ← r.orDefault "delta" .empty Delta.ofJson?,
    ← finishReason? r⟩

/-- Read a chunk. No field has to be there, so that an object without any of them is a chunk that
adds nothing. -/
def Chunk.ofJson? (v : Json) : Option Chunk := do
  let r ← record? Response.fieldNames v
  return {
    id := ← r.orDefault "id" "" string?
    object := ← r.orDefault "object" "" string?
    created := ← r.orDefault "created" 0 u64?
    model := ← r.orDefault "model" "" string?
    choices := ← r.orDefault "choices" [] (listOf? ChunkChoice.ofJson?)
    usage := ← r.optional "usage" Usage.ofJson? }

/-! ## Writing -/

/-- Write a piece of a call, with the fields that are there. -/
def ToolCallDelta.toJson (d : ToolCallDelta) : Json := ofFields
  [field "index" (.nat d.index), fieldIf "id" .string d.id,
    if d.isFunction then field "type" (.string "function") else none,
    fieldIf "function" (fun (name, arguments) => ofFields
      [fieldIf "name" .string name, fieldIf "arguments" .string arguments]) d.function]

/-- Write a piece of reasoning, with the fields that are there. -/
def ThinkingDelta.toJson (d : ThinkingDelta) : Json := ofFields
  [fieldIf "content" .string d.content, fieldIf "signature" .string d.signature]

/-- Write a delta, with the fields that are there. -/
def Delta.toJson (d : Delta) : Json := ofFields
  [fieldIf "role" Role.toJson d.role, fieldIf "content" .string d.content,
    fieldIf "reasoning_content" .string d.reasoningContent,
    fieldIf "thinking" ThinkingDelta.toJson d.thinking,
    fieldIf "tool_calls" (Json.ofList ToolCallDelta.toJson) d.toolCalls]

/-- Write what is added to an answer, with null for a reason that it lacks. -/
def ChunkChoice.toJson (c : ChunkChoice) : Json := ofFields
  [field "index" (.nat c.index), field "delta" c.delta.toJson,
    field "finish_reason" (orNull FinishReason.toJson c.finishReason)]

/-- Write a chunk, with its usage if it is there. -/
def Chunk.toJson (c : Chunk) : Json := ofFields
  [field "id" (.string c.id), field "object" (.string c.object), field "created" (.nat c.created),
    field "model" (.string c.model), field "choices" (Json.ofList ChunkChoice.toJson c.choices),
    fieldIf "usage" Usage.toJson c.usage]

instance : Codec Chunk := ⟨Chunk.ofJson?, Chunk.toJson⟩

end Switchboard.Chat
