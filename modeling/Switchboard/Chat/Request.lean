import Switchboard.Json.Record
import Switchboard.Json.Shape

/-!
# Chat completion requests

The request that every chat provider accepts. Texts and images are parts of a message,
the calls of tools and their results are messages of their own.
-/

namespace Switchboard.Chat

open Json

/-- Who speaks. -/
inductive Role where
  | system
  | user
  | assistant
  | tool
  deriving DecidableEq, Repr

/-- A part of a message's content. -/
inductive Part where
  | text (text : String)
  | image (url : String) (detail : Option String)
  deriving DecidableEq, Repr

/-- The content of a message, one text or a list of parts. -/
inductive Content where
  | text (text : String)
  | parts (parts : List Part)
  deriving DecidableEq, Repr

/-- A call of a function, its arguments a JSON text. -/
structure ToolCall where
  id : String
  name : String
  arguments : String
  deriving DecidableEq, Repr

/-- A message. One of a tool says which call it answers. -/
structure Message where
  role : Role
  content : Option Content
  toolCalls : Option (List ToolCall)
  toolCallId : Option String
  reasoningContent : Option String
  deriving DecidableEq, Repr

/-- A message with one text. -/
def Message.ofText (role : Role) (text : String) : Message :=
  ⟨role, some (.text text), none, none, none⟩

/-- The text of a content, images left out. -/
def Content.texts : Content → String
  | .text s => s
  | .parts ps => String.join (ps.filterMap fun
    | .text s => some s
    | .image _ _ => none)

/-- The text of a message, images left out. -/
def Message.textContent (m : Message) : String := (m.content.map Content.texts).getD ""

/-- A function that the model may call. -/
structure Tool where
  name : String
  description : Option String
  parameters : Json
  deriving DecidableEq, Repr

/-- Whether the model must call a function, and which one. -/
inductive ToolChoice where
  | none
  | auto
  | required
  | named (name : String)
  deriving DecidableEq, Repr

/-- A request for an answer to a conversation. -/
structure Request where
  model : String
  messages : List Message
  maxTokens : Option Nat
  temperature : Option Real32
  topP : Option Real32
  stop : Option (List String)
  tools : Option (List Tool)
  toolChoice : Option ToolChoice
  parallelToolCalls : Option Bool
  stream : Bool
  deriving DecidableEq, Repr

/-! ## Reading -/

/-- The roles, by name. -/
def Role.named : List (String × Role) :=
  [("system", .system), ("user", .user), ("assistant", .assistant), ("tool", .tool)]

/-- Read a role. There are no others than the four. -/
def Role.ofJson? (v : Json) : Option Role := do
  let name ← name? isNull (named.map (·.1)) v
  named.lookup name

/-- The only kind of tool is a function. -/
def functionKind? (v : Json) : Option Unit := do
  let _ ← name? isNull ["function"] v

/-- The address of an image, and how closely it is to be looked at. -/
def Part.imageUrl? (v : Json) : Option (String × Option String) := do
  let r ← record? ["url", "detail"] v
  return (← r.required "url" string?, ← r.optional "detail" string?)

/-- Read a part. A part of another kind is none. -/
def Part.ofJson? (v : Json) : Option Part := do
  let (form, v) ← tagged? "type" ["text", "image_url"] true v
  match form with
  | "text" =>
    let r ← record? ["text"] v
    return .text (← r.required "text" string?)
  | _ =>
    let r ← record? ["image_url"] v
    let (url, detail) ← r.required "image_url" imageUrl?
    return .image url detail

/-- Read a content, which is a text or an array of parts. -/
def Content.ofJson? (v : Json) : Option Content :=
  match v with
  | .string s => some (.text s)
  | v => (listOf? Part.ofJson? v).map .parts

/-- The name and the arguments of a call. -/
def ToolCall.function? (v : Json) : Option (String × String) := do
  let r ← record? ["name", "arguments"] v
  return (← r.required "name" string?, ← r.orDefault "arguments" "" string?)

/-- What is kept of a call when it is read. -/
def ToolCall.shape : Shape := .ofFields ["id", "type", "function"]
  [("function", .ofFields ["name", "arguments"] [])]

/-- Read a call. Its kind may be absent, and its arguments too. -/
def ToolCall.ofJson? (v : Json) : Option ToolCall := do
  let r ← record? ["id", "type", "function"] v
  let id ← r.required "id" string?
  let _ ← r.orDefault "type" () functionKind?
  let (name, arguments) ← r.required "function" function?
  return ⟨id, name, arguments⟩

/-- The fields of a message, in the order in which they are written. -/
def Message.fieldNames : List String :=
  ["role", "content", "tool_calls", "tool_call_id", "reasoning_content"]

/-- What is kept of a message when it is read. -/
def Message.shape : Shape := .ofFields fieldNames [("tool_calls", .list ToolCall.shape)]

/-- Read a message. All but its role may be absent. -/
def Message.ofJson? (v : Json) : Option Message := do
  let r ← record? fieldNames v
  return {
    role := ← r.required "role" Role.ofJson?
    content := ← r.optional "content" Content.ofJson?
    toolCalls := ← r.optional "tool_calls" (listOf? ToolCall.ofJson?)
    toolCallId := ← r.optional "tool_call_id" string?
    reasoningContent := ← r.optional "reasoning_content" string? }

/-- The name, the description and the parameters of a function. -/
def Tool.function? (v : Json) : Option Tool := do
  let r ← record? ["name", "description", "parameters"] v
  return ⟨← r.required "name" string?, ← r.optional "description" string?,
    ← r.orDefault "parameters" .null free?⟩

/-- What is kept of a tool when it is read. -/
def Tool.shape : Shape := .ofFields ["type", "function"]
  [("function", .ofFields ["name", "description", "parameters"] [])]

/-- Read a tool. Its kind may be absent. -/
def Tool.ofJson? (v : Json) : Option Tool := do
  let r ← record? ["type", "function"] v
  let _ ← r.orDefault "type" () functionKind?
  r.required "function" function?

/-- The choices that name no function. -/
def ToolChoice.modes : List (String × ToolChoice) :=
  [("none", .none), ("auto", .auto), ("required", .required)]

/-- The choice of one function. -/
def ToolChoice.named? (v : Json) : Option ToolChoice := do
  let r ← record? ["type", "function"] v
  let _ ← r.orDefault "type" () functionKind?
  let name ← r.required "function" fun f => do
    let r ← record? ["name"] f
    r.required "name" string?
  return .named name

/-- Read a choice, which is a mode or a function. -/
def ToolChoice.ofJson? (v : Json) : Option ToolChoice :=
  match name? isNull (modes.map (·.1)) v with
  | some mode => modes.lookup mode
  | .none => named? v

/-- The fields of a request, in the order in which they are written. -/
def Request.fieldNames : List String :=
  ["model", "messages", "max_tokens", "temperature", "top_p", "stop", "tools", "tool_choice",
    "parallel_tool_calls", "stream"]

/-- The parts of a request that are kept when it is read. -/
def Request.shape : Shape := .ofFields fieldNames
  [("messages", .list Message.shape), ("tools", .list Tool.shape)]

/-- Read a request. Only the model and the messages must be there. -/
def Request.ofJson? (v : Json) : Option Request := do
  let r ← record? fieldNames v
  return {
    model := ← r.required "model" string?
    messages := ← r.required "messages" (listOf? Message.ofJson?)
    maxTokens := ← r.optional "max_tokens" u32?
    temperature := ← r.optional "temperature" real32?
    topP := ← r.optional "top_p" real32?
    stop := ← r.optional "stop" (listOf? string?)
    tools := ← r.optional "tools" (listOf? Tool.ofJson?)
    toolChoice := ← r.optional "tool_choice" ToolChoice.ofJson?
    parallelToolCalls := ← r.optional "parallel_tool_calls" bool?
    stream := ← r.orDefault "stream" false bool? }

/-! ## Writing -/

/-- Write a role. -/
def Role.toJson : Role → Json
  | .system => .string "system"
  | .user => .string "user"
  | .assistant => .string "assistant"
  | .tool => .string "tool"

/-- Write a part, its kind first. -/
def Part.toJson : Part → Json
  | .text s => ofFields [field "type" (.string "text"), field "text" (.string s)]
  | .image url detail => ofFields
    [field "type" (.string "image_url"),
      field "image_url" (ofFields [field "url" (.string url), fieldIf "detail" .string detail])]

/-- Write a content as it was given, as a text or as an array. -/
def Content.toJson : Content → Json
  | .text s => .string s
  | .parts ps => Json.ofList Part.toJson ps

/-- Write a call, always with its kind. -/
def ToolCall.toJson (c : ToolCall) : Json := ofFields
  [field "id" (.string c.id), field "type" (.string "function"),
    field "function" (ofFields
      [field "name" (.string c.name), field "arguments" (.string c.arguments)])]

/-- Write a message, with null for a content that it lacks. -/
def Message.toJson (m : Message) : Json := ofFields
  [field "role" m.role.toJson, field "content" (orNull Content.toJson m.content),
    fieldIf "tool_calls" (Json.ofList ToolCall.toJson) m.toolCalls,
    fieldIf "tool_call_id" .string m.toolCallId,
    fieldIf "reasoning_content" .string m.reasoningContent]

/-- Write a tool, without parameters if they are null. -/
def Tool.toJson (t : Tool) : Json := ofFields
  [field "type" (.string "function"),
    field "function" (ofFields
      [field "name" (.string t.name), fieldIf "description" .string t.description,
        if t.parameters.isNull then none else field "parameters" t.parameters])]

/-- Write a choice. -/
def ToolChoice.toJson : ToolChoice → Json
  | .none => .string "none"
  | .auto => .string "auto"
  | .required => .string "required"
  | .named name => ofFields
    [field "type" (.string "function"), field "function" (ofFields [field "name" (.string name)])]

/-- Write a request. `stream` is written if it is wanted. -/
def Request.toJson (r : Request) : Json := ofFields
  [field "model" (.string r.model), field "messages" (Json.ofList Message.toJson r.messages),
    fieldIf "max_tokens" .nat r.maxTokens, fieldIf "temperature" ofReal32 r.temperature,
    fieldIf "top_p" ofReal32 r.topP, fieldIf "stop" (Json.ofList .string) r.stop,
    fieldIf "tools" (Json.ofList Tool.toJson) r.tools,
    fieldIf "tool_choice" ToolChoice.toJson r.toolChoice,
    fieldIf "parallel_tool_calls" .bool r.parallelToolCalls,
    if r.stream then field "stream" (.bool true) else none]

instance : Codec Request := ⟨Request.ofJson?, Request.toJson⟩

end Switchboard.Chat
