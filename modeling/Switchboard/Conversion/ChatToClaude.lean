import Switchboard.Tokens
import Switchboard.Text.Blank
import Switchboard.Json.Parser
import Switchboard.Claude.Event
import Switchboard.Chat.Chunk

/-!
# Chat completions as messages

A finished answer becomes one message: the texts of its first choice, then its calls. An
answer that was cut off before its first word says so. A single chunk becomes at most
one event, without memory of the chunks before it.
-/

namespace Switchboard

namespace Chat

/-- Why the model stopped; what is not known ends the turn. -/
def stopReason : Option FinishReason → Claude.StopReason
  | some .length => .maxTokens
  | some .toolCalls => .toolUse
  | some .contentFilter => .stopSequence
  | _ => .endTurn

/-- Arguments as a value. Blank ones and those that are no JSON text are the empty object. -/
def parseArguments (arguments : String) : Json :=
  if Text.isBlankText arguments then .object []
  else (Json.parseSorted? arguments).getD (.object [])

/-- What an answer says that was cut off before its first word. -/
def truncationNotice : String := "[Response truncated due to token limit]"

/-- The texts of a content that are not empty. -/
def Content.textBlocks : Content → List Claude.Block
  | .text s => if s.isEmpty then [] else [.plain s]
  | .parts ps => ps.filterMap fun
    | .text s => if s.isEmpty then none else some (.plain s)
    | .image _ _ => none

/-- The tool use that a call amounts to. -/
def ToolCall.toBlock (c : ToolCall) : Claude.Block :=
  .toolUse c.id c.name (parseArguments c.arguments)

/-- The blocks of a choice: its texts, then its calls. -/
def Choice.blocks (c : Choice) : List Claude.Block :=
  (if c.finishReason = some .length ∧ c.message.textContent.isEmpty then
      [.plain truncationNotice]
    else (c.message.content.map Content.textBlocks).getD []) ++
  (c.message.toolCalls.getD []).map ToolCall.toBlock

variable [Tokenizer]

/-- The tokens of an answer, as reported or, failing that, estimated. -/
def Response.outputTokens (r : Response) : Nat :=
  match r.usage with
  | some u => if 0 < u.completionTokens then u.completionTokens else Tokens.ofResponse r
  | none => Tokens.ofResponse r

/-- The tokens of the prompt, zero if they were not reported. -/
def Response.promptTokens (r : Response) : Nat := (r.usage.map (·.promptTokens)).getD 0

/-- The message that a finished answer amounts to. -/
def Response.toClaude (r : Response) : Claude.Response :=
  let first := r.choices.head?
  { id := "msg_" ++ r.id
    kind := "message"
    role := .assistant
    content := (first.map Choice.blocks).getD []
    model := r.model
    stopReason := some (stopReason (first.bind (·.finishReason)))
    stopSequence := none
    usage := .of r.promptTokens (if first.isSome then r.outputTokens else 0) }

/-- A text, if there is something in it. -/
def nonEmpty? (s : Option String) : Option String := s.filter fun s => !s.isEmpty

/-- A named piece of a call starts a block, a piece with arguments continues one. -/
def ToolCallDelta.toClaudeEvent? (d : ToolCallDelta) : Option Claude.Event :=
  match nonEmpty? d.name?, nonEmpty? d.arguments? with
  | some name, _ => some (.blockStart d.index (.toolUse (d.id.getD "") name (.object [])))
  | none, some arguments => some (.blockDelta d.index (.inputJson arguments))
  | none, none => none

/-- Text goes before tool calls, and tool calls go before the finish reason. -/
def Chunk.toClaudeEvent? (c : Chunk) : Option Claude.Event := do
  let choice ← c.choices.head?
  match nonEmpty? choice.delta.content with
  | some text => return .blockDelta 0 (.text text)
  | none =>
    match (choice.delta.toolCalls.getD []).findSome? ToolCallDelta.toClaudeEvent? with
    | some event => return event
    | none =>
      let reason ← choice.finishReason
      let usage := match c.usage with
        | some u => Claude.Usage.of u.promptTokens u.completionTokens
        | none => Claude.Usage.of 0 0
      return .messageDelta (some (stopReason (some reason))) none usage

end Chat

end Switchboard
