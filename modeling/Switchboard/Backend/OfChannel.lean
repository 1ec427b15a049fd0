import Switchboard.Backend.Combined
import Switchboard.Backend.Gemini
import Switchboard.Backend.Hosted
import Switchboard.Config.Settings

/-!
# The backend of a channel

A channel's kind says which protocol its backend speaks, what it can do and where it is
unless the channel says otherwise.
-/

namespace Switchboard

/-- The address and the capabilities of the kinds that speak the chat completion
protocol. -/
def ChannelKind.chatBackend? : ChannelKind → Option (String × CapabilitySet)
  | openAI => some ("https://api.openai.com/v1",
      (((CapabilitySet.chat.insert .embeddings).insert .imageGeneration).insert .responses).insert
        .responsesStream)
  | openRouter => some ("https://openrouter.ai/api/v1", .chat)
  | deepseek => some ("https://api.deepseek.com/v1", .chat)
  | moonshot => some ("https://api.moonshot.cn/v1", .chat)
  | mistral => some ("https://api.mistral.ai/v1", CapabilitySet.chat.insert .embeddings)
  | groq => some ("https://api.groq.com/openai/v1", .chat)
  | ollama => some ("http://localhost:11434/v1", CapabilitySet.chat.insert .embeddings)
  | siliconflow => some ("https://api.siliconflow.cn/v1", CapabilitySet.chat.insert .embeddings)
  | xAI => some ("https://api.x.ai/v1", .chat)
  | _ => none

/-- Chat and messages, streamed or not, and embeddings. -/
def CapabilitySet.chatAndMessages : CapabilitySet :=
  (CapabilitySet.chat.union .claude).insert .embeddings

/-- The handle of a channel's backend. -/
def Handle.ofChannel {σ : Type} [Tokenizer] (network : Network σ) (relay : RelaySettings)
    (c : Channel) : Except Error (Handle σ) :=
  let marked := relay.providerErrorPrefix
  let urlOr (default : String) : String := c.baseUrl.getD default
  match c.kind with
  | .anthropic =>
    let url := Text.trimEndOf '/' (urlOr "https://api.anthropic.com/v1") ++ "/messages"
    .ok ⟨MessagesBackend.provider ⟨c.name, url, c.key, .apiKey⟩ network marked, .claude⟩
  | .zhipu =>
    .ok ⟨twoProtocolProvider network marked c.name (urlOr "https://open.bigmodel.cn/api") c.key,
      .chatAndMessages⟩
  | .ali =>
    let url := urlOr "https://dashscope.aliyuncs.com/compatible-mode/v1"
    .ok ⟨convertingProvider network marked c.name url c.key, .chatAndMessages⟩
  | .gemini =>
    let url := urlOr "https://generativelanguage.googleapis.com/v1beta"
    .ok ⟨(GeminiBackend.ofAddress c.name url c.key).provider network marked, .chat⟩
  | .bedrock => do
    let key ← InvocationKey.ofParts c.keyParts
    return ⟨InvocationBackend.provider ⟨c.name, c.baseUrl, key⟩ network, .claude⟩
  | .vertexAI => do
    let key ← PredictionKey.ofParts c.keyParts
    return ⟨(PredictionBackend.ofAddress c.name c.baseUrl key).provider network marked, .claude⟩
  | .custom =>
    match c.baseUrl with
    | none => .error (.internal
        (some ("channel " ++ toString c.id ++ " is a custom channel without base_url")))
    | some url =>
      .ok ⟨(ChatBackend.ofAddress c.name url c.key).provider network marked,
        CapabilitySet.chat.insert .embeddings⟩
  | kind =>
    match kind.chatBackend? with
    | some (url, capabilities) =>
      .ok ⟨(ChatBackend.ofAddress c.name (urlOr url) c.key).provider network marked, capabilities⟩
    | none => .error (.channel ("channel type " ++ kind.name ++ " is not supported"))

end Switchboard
