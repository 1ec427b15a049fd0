import Switchboard.Conversion.ChatToClaude
import Switchboard.Conversion.ClaudeToChat
import Switchboard.Provider.Basic

/-!
# Messages through chat

A provider that serves chat also serves messages: requests are converted on the way in
and answers on the way out. An answer that does not name its model gets the model that
was asked for.
-/

namespace Switchboard

variable {σ : Type} [Tokenizer]

/-- The request as a chat completion request, fresh ids made as needed. -/
def Claude.Request.toChatAction (r : Claude.Request) : Action σ Chat.Request :=
  .minting r.toChat

/-- The answer with a model, if it names none. -/
def Claude.Response.withModel (r : Claude.Response) (model : String) : Claude.Response :=
  if r.model.isEmpty then { r with model := model } else r

/-- The provider with messages served through chat. -/
def Provider.adaptChat (p : Provider σ) : Provider σ :=
  { p with
    message := fun r => do
      let chat ← r.toChatAction
      let answer ← p.chat { chat with stream := false }
      return answer.toClaude.withModel r.model
    messageStream := fun r => do
      let chat ← r.toChatAction
      return .chunks (← p.chatStream { chat with stream := true }) .merging }

/-- A handle that serves messages: this one if it does, and otherwise the provider with
messages served through chat. -/
def Handle.serveMessages (h : Handle σ) : Except Error (Handle σ) :=
  if h.supports .claudeChat then .ok h
  else if !h.supports .chat then .error .notImplemented
  else
    let capabilities := h.capabilities.insert .claudeChat
    .ok {
      provider := h.provider.adaptChat
      capabilities :=
        if h.supports .chatStream then capabilities.insert .claudeChatStream else capabilities }

end Switchboard
