import Switchboard.Clock
import Switchboard.Error
import Switchboard.Json.Printer
import Switchboard.Chat.Request

/-!
# Messages requests as chat completion requests

A request needs messages and a bound on its tokens. Its system texts come first, one
message each. The results of tools become messages of their own, ahead of one message
with the user's texts and images; each text of the assistant becomes a message, and the
tool uses of a message are gathered behind its texts. A tool use without a name is
dropped, one without an id gets a fresh one.
-/

namespace Switchboard

namespace Claude

/-- What every backend requires of a request. -/
def Request.check (r : Request) : Except Error Unit :=
  if r.messages.isEmpty then .error (.invalidRequest "messages cannot be empty")
  else if r.maxTokens = 0 then .error (.invalidRequest "max_tokens must be positive")
  else .ok ()

/-- The address of an image; one that is carried in line is a data address. -/
def ImageSource.toUrl : ImageSource → String
  | .base64 mediaType data => "data:" ++ mediaType ++ ";base64," ++ data
  | .url location => location

/-- The result of a tool as a text. -/
def resultText : Json → String
  | .string s => s
  | .null => ""
  | v => v.render

/-- The result of a tool as a message. -/
def Block.toToolMessage? : Block → Option Chat.Message
  | .toolResult id content _ =>
    some ⟨.tool, some (.text (resultText content)), none, some id, none⟩
  | _ => none

/-- A text or an image as a part of a message. -/
def Block.toPart? : Block → Option Chat.Part
  | .text s _ _ => some (.text s)
  | .image source => some (.image source.toUrl none)
  | _ => none

/-- The message that a text of the assistant amounts to. Other blocks are no text. -/
def Block.toAssistantText? : Block → Option Chat.Message
  | .text s _ _ => some (.ofText .assistant s)
  | _ => none

/-- The calls that tool uses with a name amount to. -/
def toolCalls : List Block → Mint → List Chat.ToolCall × Mint
  | [], mint => ([], mint)
  | .toolUse id name input :: rest, mint =>
    if name.isEmpty then toolCalls rest mint
    else
      let (id, mint) := if id.isEmpty then mint.toolCallId else (id, mint)
      let (calls, mint) := toolCalls rest mint
      (⟨id, name, input.render⟩ :: calls, mint)
  | _ :: rest, mint => toolCalls rest mint

/-- The messages of a user's blocks: results of tools, then texts and images. -/
def userMessages (blocks : List Block) : List Chat.Message :=
  let parts := blocks.filterMap Block.toPart?
  blocks.filterMap Block.toToolMessage? ++
    if parts.isEmpty then [] else [⟨.user, some (.parts parts), none, none, none⟩]

/-- The messages of the assistant's blocks: texts, then all calls in one message. -/
def assistantMessages (blocks : List Block) (mint : Mint) : List Chat.Message × Mint :=
  let (calls, mint) := toolCalls blocks mint
  (blocks.filterMap Block.toAssistantText? ++
    if calls.isEmpty then [] else [⟨.assistant, none, some calls, none, none⟩], mint)

/-- The messages that one amounts to. Calls without an id get a fresh one. -/
def Message.toChat (m : Message) (mint : Mint) : List Chat.Message × Mint :=
  match m.role, m.content with
  | .user, .text s => ([.ofText .user s], mint)
  | .assistant, .text s => ([.ofText .assistant s], mint)
  | .user, .blocks blocks => (userMessages blocks, mint)
  | .assistant, .blocks blocks => assistantMessages blocks mint

/-- The messages one after another, sharing the source of fresh ids. -/
def messagesToChat : List Message → Mint → List Chat.Message × Mint
  | [], mint => ([], mint)
  | m :: rest, mint =>
    let (first, mint) := m.toChat mint
    let (others, mint) := messagesToChat rest mint
    (first ++ others, mint)

/-- The function that a tool amounts to. -/
def Tool.toChat (t : Tool) : Chat.Tool := ⟨t.name, t.description, t.inputSchema⟩

/-- The choice for a chat provider, which does not say whether calls may be parallel. -/
def ToolChoice.toChat : ToolChoice → Chat.ToolChoice
  | .auto _ => .auto
  | .any _ => .required
  | .none => .none
  | .tool name _ => .named name

/-- A list, if there is something in it. -/
def nonEmpty? {α : Type} (items : Option (List α)) : Option (List α) :=
  items.filter fun items => !items.isEmpty

/-- The request for a chat provider. The choice of a tool matters only beside tools. -/
def Request.toChat (r : Request) (mint : Mint) : Except Error (Chat.Request) × Mint :=
  match r.check with
  | .error e => (.error e, mint)
  | .ok () =>
    let (messages, mint) := messagesToChat r.messages mint
    let choice := if r.hasTools then r.toolChoice else none
    (.ok {
      model := r.model
      messages := r.systemTexts.map (.ofText .system) ++ messages
      maxTokens := some r.maxTokens
      temperature := r.temperature
      topP := r.topP
      stop := nonEmpty? r.stopSequences
      tools := (nonEmpty? r.tools).map fun tools => tools.map Tool.toChat
      toolChoice := choice.map ToolChoice.toChat
      parallelToolCalls := (choice.bind ToolChoice.disableParallel?).map (!·)
      stream := r.stream.getD false }, mint)

end Claude

end Switchboard
