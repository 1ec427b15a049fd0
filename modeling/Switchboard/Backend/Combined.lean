import Switchboard.Backend.Messages
import Switchboard.Provider.Adapter

/-!
# Backends for chat and messages

Backends that serve both protocols: one has an address for each, the other serves
messages through chat. There a stream with tools is merged, so that the pieces of tool
calls come together, and a plain one goes on chunk by chunk.
-/

namespace Switchboard

variable {σ : Type} [Tokenizer]

/-- A root address with chat completions and messages below it. -/
def twoProtocolProvider (network : Network σ) (marked : Bool) (name root key : String) :
    Provider σ :=
  let root := Text.trimEndOf '/' root
  let chat := (ChatBackend.ofAddress name (root ++ "/paas/v4") key).provider network marked
  let messages := MessagesBackend.provider
    ⟨name, root ++ "/anthropic/v1/messages", key, .bearer⟩ network marked
  { Provider.bare name with
    chat := chat.chat
    chatStream := chat.chatStream
    embed := chat.embed
    message := messages.message
    messageStream := messages.messageStream }

/-- A chat completion backend that serves messages through chat. -/
def convertingProvider (network : Network σ) (marked : Bool) (name baseUrl key : String) :
    Provider σ :=
  let chat := (ChatBackend.ofAddress name baseUrl key).provider network marked
  { Provider.bare name with
    chat := chat.chat
    chatStream := chat.chatStream
    embed := chat.embed
    message := fun r => do
      let answer ← chat.chat (← r.toChatAction)
      return answer.toClaude.withModel r.model
    messageStream := fun r => do
      let chunks ← chat.chatStream (← r.toChatAction)
      return .chunks chunks (if r.hasTools then .merging else .perChunk) }

end Switchboard
