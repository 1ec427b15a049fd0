/-!
# Capabilities

The operations that a provider can serve, and sets of them.
-/

namespace Switchboard

/-- An operation that a provider can serve. -/
inductive Capability where
  | chat
  | chatStream
  | claudeChat
  | claudeChatStream
  | embeddings
  | imageGeneration
  | responses
  | responsesStream
  deriving DecidableEq, Repr

namespace Capability

/-- Every capability, in the order in which sets list them. -/
def all : List Capability :=
  [chat, chatStream, claudeChat, claudeChatStream, embeddings, imageGeneration, responses,
    responsesStream]

/-- The name of a capability. -/
def name : Capability → String
  | chat => "chat"
  | chatStream => "chat-stream"
  | claudeChat => "claude-chat"
  | claudeChatStream => "claude-chat-stream"
  | embeddings => "embeddings"
  | imageGeneration => "image-generation"
  | responses => "responses"
  | responsesStream => "responses-stream"

/-- The capability with a name. -/
def ofName? (s : String) : Option Capability := all.find? fun c => c.name == s

end Capability

/-- A set of capabilities. -/
structure CapabilitySet where
  has : Capability → Bool

namespace CapabilitySet

/-- The set of no capability. -/
def empty : CapabilitySet := ⟨fun _ => false⟩

/-- The set with one more capability. -/
def insert (s : CapabilitySet) (c : Capability) : CapabilitySet := ⟨fun d => d = c || s.has d⟩

/-- The set of what is in one or the other. -/
def union (s t : CapabilitySet) : CapabilitySet := ⟨fun c => s.has c || t.has c⟩

/-- The set of what is in a list. -/
def ofList (cs : List Capability) : CapabilitySet := ⟨fun c => cs.contains c⟩

/-- Chat, streamed or not. -/
def chat : CapabilitySet := ofList [.chat, .chatStream]

/-- Messages, streamed or not. -/
def claude : CapabilitySet := ofList [.claudeChat, .claudeChatStream]

/-- What is in a set, in the order of all capabilities. -/
def toList (s : CapabilitySet) : List Capability := Capability.all.filter s.has

/-- The names in braces, quoted. -/
def display (s : CapabilitySet) : String :=
  "\x7b" ++ ", ".intercalate (s.toList.map fun c => "\"" ++ c.name ++ "\"") ++ "\x7d"

end CapabilitySet

end Switchboard
