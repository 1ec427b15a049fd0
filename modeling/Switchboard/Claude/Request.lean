import Switchboard.Claude.Block
import Switchboard.Json.Shape

/-!
# Messages requests

The body of a request for a message: the conversation so far, the system prompt and the
tools the model may call.
-/

namespace Switchboard.Claude

open Json

/-- A block of the system prompt. -/
structure SystemBlock where
  kind : String
  text : String
  cacheControl : Option Json
  deriving DecidableEq, Repr

/-- The system prompt, one text or a list of blocks. -/
inductive System where
  | text (text : String)
  | blocks (blocks : List SystemBlock)
  deriving DecidableEq, Repr

/-- Who speaks. -/
inductive Role where
  | user
  | assistant
  deriving DecidableEq, Repr

/-- The content of a message, one text or a list of blocks. -/
inductive Content where
  | text (text : String)
  | blocks (blocks : List Block)
  deriving DecidableEq, Repr

/-- A message of the conversation. -/
structure Message where
  role : Role
  content : Content
  deriving DecidableEq, Repr

/-- A tool the model may call. One with a kind is run by the model's own servers. -/
structure Tool where
  name : String
  description : Option String
  inputSchema : Json
  kind : Option String
  cacheControl : Option Json
  deriving DecidableEq, Repr

/-- Whether the model must call a tool, and which one. All but the last say whether it may call
several at once. -/
inductive ToolChoice where
  | auto (disableParallel : Option Bool)
  | any (disableParallel : Option Bool)
  | tool (name : String) (disableParallel : Option Bool)
  | none
  deriving DecidableEq, Repr

/-- Whether the choice forbids several calls at once, if it says so. -/
def ToolChoice.disableParallel? : ToolChoice → Option Bool
  | auto d => d
  | any d => d
  | tool _ d => d
  | none => Option.none

/-- A request for a message. No bound on the answer is a bound of zero tokens. -/
structure Request where
  model : String
  messages : List Message
  system : Option System
  maxTokens : Nat
  temperature : Option Real32
  topP : Option Real32
  topK : Option Nat
  stopSequences : Option (List String)
  tools : Option (List Tool)
  toolChoice : Option ToolChoice
  stream : Option Bool
  metadata : Option Json
  thinking : Option Json
  deriving DecidableEq, Repr

/-- The texts of the system prompt that are not empty, in order. -/
def System.texts : System → List String
  | .text s => if s.isEmpty then [] else [s]
  | .blocks bs =>
    (bs.filter fun b => b.kind == "text" && !b.text.isEmpty).map (·.text)

namespace Request

/-- Whether the answer is to be streamed. -/
def isStream (r : Request) : Bool := r.stream.getD false

/-- Whether there is a tool to call. -/
def hasTools (r : Request) : Bool := (r.tools.getD []).length != 0

/-- The texts of the system prompt that are not empty. -/
def systemTexts (r : Request) : List String := (r.system.map System.texts).getD []

/-- The texts of the system prompt, a line break between two of them. -/
def systemText (r : Request) : String := "\n".intercalate r.systemTexts

end Request

/-! ## Reading -/

/-- Read a block of the system prompt. What has no kind is a text, and may be empty. -/
def SystemBlock.ofJson? (v : Json) : Option SystemBlock := do
  let r ← record? ["type", "text", "cache_control"] v
  return ⟨← r.orDefault "type" "text" string?, ← r.orDefault "text" "" string?,
    ← r.optional "cache_control" free?⟩

/-- Read a system prompt, which is a text or an array of blocks. -/
def System.ofJson? (v : Json) : Option System :=
  match v with
  | .string s => some (.text s)
  | v => (listOf? SystemBlock.ofJson? v).map .blocks

/-- A role, where some values beside its name count as nothing. -/
def Role.read? (isNothing : Json → Bool) (v : Json) : Option Role := do
  match ← name? isNothing ["user", "assistant"] v with
  | "user" => return .user
  | _ => return .assistant

/-- Read a role. -/
def Role.ofJson? (v : Json) : Option Role := Role.read? isNull v

/-- Read a content, which is a text or an array. Every value in it is a block. -/
def Content.ofJson? : Json → Option Content
  | .string s => some (.text s)
  | .array items => some (.blocks (items.map Block.ofJson))
  | _ => none

/-- The fields of a message, in the order in which they are written. -/
def Message.fieldNames : List String := ["role", "content"]

/-- Read a message. Both fields must be there. -/
def Message.ofJson? (v : Json) : Option Message := do
  let r ← record? fieldNames v
  return ⟨← r.required "role" Role.ofJson?, ← r.required "content" Content.ofJson?⟩

/-- The fields of a tool. -/
def Tool.fieldNames : List String :=
  ["name", "description", "input_schema", "type", "cache_control"]

/-- Read a tool. Only its name must be there, and its schema is null without. -/
def Tool.ofJson? (v : Json) : Option Tool := do
  let r ← record? fieldNames v
  return ⟨← r.required "name" string?, ← r.optional "description" string?,
    ← r.orDefault "input_schema" .null free?, ← r.optional "type" string?,
    ← r.optional "cache_control" free?⟩

/-- Read a choice. It is told by its kind, by name only. -/
def ToolChoice.ofJson? (v : Json) : Option ToolChoice := do
  let (form, v) ← tagged? "type" ["auto", "any", "tool", "none"] false v
  let disable := "disable_parallel_tool_use"
  match form with
  | "auto" =>
    let r ← record? [disable] v
    return .auto (← r.optional disable bool?)
  | "any" =>
    let r ← record? [disable] v
    return .any (← r.optional disable bool?)
  | "tool" =>
    let r ← record? ["name", disable] v
    return .tool (← r.required "name" string?) (← r.optional disable bool?)
  | _ =>
    noFields? v
    return .none

/-- The fields of a request, in the order in which they are written. -/
def Request.fieldNames : List String :=
  ["model", "messages", "system", "max_tokens", "temperature", "top_p", "top_k",
    "stop_sequences", "tools", "tool_choice", "stream", "metadata", "thinking"]

/-- The parts of a request that are kept when it is read. -/
def Request.shape : Shape := .ofFields fieldNames
  [("messages", .list (.ofFields Message.fieldNames [])),
    ("tools", .list (.ofFields Tool.fieldNames []))]

/-- Read a request. Only the model and the messages must be there. -/
def Request.ofJson? (v : Json) : Option Request := do
  let r ← record? fieldNames v
  return {
    model := ← r.required "model" string?
    messages := ← r.required "messages" (listOf? Message.ofJson?)
    system := ← r.optional "system" System.ofJson?
    maxTokens := ← r.orDefault "max_tokens" 0 u32?
    temperature := ← r.optional "temperature" real32?
    topP := ← r.optional "top_p" real32?
    topK := ← r.optional "top_k" u32?
    stopSequences := ← r.optional "stop_sequences" (listOf? string?)
    tools := ← r.optional "tools" (listOf? Tool.ofJson?)
    toolChoice := ← r.optional "tool_choice" ToolChoice.ofJson?
    stream := ← r.optional "stream" bool?
    metadata := ← r.optional "metadata" free?
    thinking := ← r.optional "thinking" free? }

/-! ## Writing -/

/-- Write a block of the system prompt. -/
def SystemBlock.toJson (b : SystemBlock) : Json := ofFields
  [field "type" (.string b.kind), field "text" (.string b.text),
    fieldIf "cache_control" id b.cacheControl]

/-- Write a system prompt as it was given, as a text or as an array. -/
def System.toJson : System → Json
  | .text s => .string s
  | .blocks bs => Json.ofList SystemBlock.toJson bs

/-- Write a role. -/
def Role.toJson : Role → Json
  | user => .string "user"
  | assistant => .string "assistant"

/-- Write a content as it was given, as a text or as an array. -/
def Content.toJson : Content → Json
  | .text s => .string s
  | .blocks bs => Json.ofList Block.toJson bs

/-- Write a message. -/
def Message.toJson (m : Message) : Json := ofFields
  [field "role" m.role.toJson, field "content" m.content.toJson]

/-- Write a tool, with the fields that are there, and its schema in any case. -/
def Tool.toJson (t : Tool) : Json := ofFields
  [field "name" (.string t.name), fieldIf "description" .string t.description,
    field "input_schema" t.inputSchema, fieldIf "type" .string t.kind,
    fieldIf "cache_control" id t.cacheControl]

/-- Write a choice, its kind first. -/
def ToolChoice.toJson : ToolChoice → Json
  | .auto d => ofFields
    [field "type" (.string "auto"), fieldIf "disable_parallel_tool_use" .bool d]
  | .any d => ofFields
    [field "type" (.string "any"), fieldIf "disable_parallel_tool_use" .bool d]
  | .tool name d => ofFields
    [field "type" (.string "tool"), field "name" (.string name),
      fieldIf "disable_parallel_tool_use" .bool d]
  | .none => ofFields [field "type" (.string "none")]

/-- The request as an object, its numbers of 32 bits written by `real`. -/
def Request.toJsonWith (real : Real32 → Json) (r : Request) : Json := ofFields
  [field "model" (.string r.model),
    field "messages" (Json.ofList Message.toJson r.messages),
    fieldIf "system" System.toJson r.system,
    field "max_tokens" (.nat r.maxTokens),
    fieldIf "temperature" real r.temperature,
    fieldIf "top_p" real r.topP,
    fieldIf "top_k" .nat r.topK,
    fieldIf "stop_sequences" (Json.ofList .string) r.stopSequences,
    fieldIf "tools" (Json.ofList Tool.toJson) r.tools,
    fieldIf "tool_choice" ToolChoice.toJson r.toolChoice,
    fieldIf "stream" .bool r.stream,
    fieldIf "metadata" id r.metadata,
    fieldIf "thinking" id r.thinking]

/-- Write a request, its numbers by their shortest digits. -/
def Request.toJson (r : Request) : Json := r.toJsonWith ofReal32

instance : Codec Request := ⟨Request.ofJson?, Request.toJson⟩

end Switchboard.Claude
