import Switchboard.Json.Printer
import Switchboard.Claude.Request
import Switchboard.Chat.Response

/-!
# Token estimates

Where a provider reports no usage, a tokenizer counts the tokens of a text. Without one
a text counts one token per four characters, begun ones included.
-/

namespace Switchboard

/-- What counts the tokens of a text that is not empty, if there is such a thing. -/
class Tokenizer where
  count? : Option (String → Nat)

/-- Where none is given there is none. -/
instance : Tokenizer := ⟨none⟩

namespace Tokens

variable [Tokenizer]

/-- The tokens of a text, at most what 32 bits hold. -/
def estimate (text : String) : Nat :=
  if text.isEmpty then 0
  else min ((Tokenizer.count?.map (· text)).getD ((text.length + 3) / 4)) Json.u32Max

/-- The tokens of texts that are counted one by one. -/
def estimateAll (texts : List String) : Nat := texts.foldr (fun text n => estimate text + n) 0

/-- The text that stands for a tool call. -/
def callText (name arguments : String) : String := "tool_use:" ++ name ++ ":" ++ arguments

/-- The tool calls of a message. -/
def messageCalls (m : Chat.Message) : List Chat.ToolCall := m.toolCalls.getD []

/-- The tokens of an answer: those of its whole text and of each call. -/
def ofResponse (r : Chat.Response) : Nat :=
  let text := String.join (r.choices.map fun c => c.message.textContent)
  let calls := r.choices.flatMap fun c => messageCalls c.message
  estimateAll (calls.map fun c => callText c.name c.arguments) + estimate text

/-- What a content block adds to the text of a prompt. -/
def blockText : Claude.Block → String
  | .text s _ _ => "\n" ++ s
  | .toolUse _ name input => "\n" ++ name ++ input.render
  | .toolResult _ content _ =>
    match content with
    | .string s => "\n" ++ s
    | content => "\n" ++ content.render
  | _ => ""

/-- What a message adds to the text of a prompt. -/
def messageText (m : Claude.Message) : String :=
  match m.content with
  | .text s => "\n" ++ s
  | .blocks blocks => String.join (blocks.map blockText)

/-- The tokens of a prompt: its system texts, messages, tool uses and tool results. -/
def ofPrompt (r : Claude.Request) : Nat :=
  estimate (r.systemText ++ String.join (r.messages.map messageText))

end Tokens

end Switchboard
