import Switchboard.Clock
import Switchboard.Embedding
import Switchboard.Image
import Switchboard.Responses
import Switchboard.Chat.Chunk
import Switchboard.Provider.Capability
import Switchboard.Relay.Delivery
import Switchboard.Text.Quoted

/-!
# Providers

A provider answers requests. What it does depends on the world and may change it, and it
may fail. Streams are opened by an action and read afterwards, as the list of what
arrives. A handle is a provider with the operations it advertises; an operation that is
not advertised fails before the provider is asked.
-/

namespace Switchboard

/-- The state of the gateway's surroundings: the source of ids, and the world of the
providers. -/
structure Session (σ : Type) where
  mint : Mint
  world : σ

/-- What changes the surroundings and gives a value or an error. -/
abbrev Action (σ α : Type) := ExceptT Error (StateM (Session σ)) α

namespace Action

variable {σ α : Type}

/-- An action that may make ids for tool calls. -/
def minting (f : Mint → Except Error α × Mint) : Action σ α := fun s =>
  let (a, mint) := f s.mint
  (a, { s with mint := mint })

/-- An action on the world of the providers. -/
def onWorld (f : σ → Except Error α × σ) : Action σ α := fun s =>
  let (a, world) := f s.world
  (a, { s with world := world })

/-- The present time. -/
def now : Action σ Instant := fun s => (.ok s.mint.now, s)

/-- A value or an error that is known already. -/
def ofExcept (a : Except Error α) : Action σ α := fun s => (a, s)

end Action

/-- How the chunks of a chat stream become events. -/
inductive ChunkMode where
  | merging
  | perChunk
  deriving DecidableEq, Repr

/-- The provider's side of a streamed message. -/
inductive MessageStream where
  | events (arrivals : List (Arrival Claude.Event))
  | chunks (arrivals : List (Arrival Chat.Chunk)) (mode : ChunkMode)
  deriving Repr

/-- What answers requests, and how each kind of them is answered. -/
structure Provider (σ : Type) where
  name : String
  chat : Chat.Request → Action σ Chat.Response
  chatStream : Chat.Request → Action σ (List (Arrival Chat.Chunk))
  message : Claude.Request → Action σ Claude.Response
  messageStream : Claude.Request → Action σ MessageStream
  embed : Embedding.Request → Action σ Embedding.Response
  draw : Image.Request → Action σ Image.Response
  respond : Responses.Request → Action σ Responses.Response
  respondStream : Responses.Request → Action σ (List (Arrival Responses.Event))

variable {σ : Type}

/-- A provider that serves nothing. -/
def Provider.bare (name : String) : Provider σ where
  name := name
  chat _ := throw .notImplemented
  chatStream _ := throw .notImplemented
  message _ := throw .notImplemented
  messageStream _ := throw .notImplemented
  embed _ := throw .notImplemented
  draw _ := throw .notImplemented
  respond _ := throw .notImplemented
  respondStream _ := throw .notImplemented

/-- A provider with the operations it advertises. -/
structure Handle (σ : Type) where
  provider : Provider σ
  capabilities : CapabilitySet

namespace Handle

/-- The name of the provider. -/
def name (h : Handle σ) : String := h.provider.name

/-- The name and the capabilities, for logs. -/
def display (h : Handle σ) : String :=
  "ProviderHandle \x7b name: " ++ Text.quote h.name ++ ", capabilities: " ++
    h.capabilities.display ++ " \x7d"

/-- Whether an operation is advertised. -/
def supports (h : Handle σ) (c : Capability) : Bool := h.capabilities.has c

/-- Fail unless a capability is advertised. -/
def require {α : Type} (h : Handle σ) (c : Capability) (action : Action σ α) : Action σ α :=
  if h.supports c then action else throw .notImplemented

/-- Answer a chat request. -/
def chat (h : Handle σ) (r : Chat.Request) : Action σ Chat.Response :=
  h.require .chat (h.provider.chat r)

/-- Open the stream of an answer to a chat request. -/
def chatStream (h : Handle σ) (r : Chat.Request) : Action σ (List (Arrival Chat.Chunk)) :=
  h.require .chatStream (h.provider.chatStream r)

/-- Answer a request for a message. -/
def message (h : Handle σ) (r : Claude.Request) : Action σ Claude.Response :=
  h.require .claudeChat (h.provider.message r)

/-- Open the stream of a message. -/
def messageStream (h : Handle σ) (r : Claude.Request) : Action σ MessageStream :=
  h.require .claudeChatStream (h.provider.messageStream r)

/-- Answer a request for embeddings. -/
def embed (h : Handle σ) (r : Embedding.Request) : Action σ Embedding.Response :=
  h.require .embeddings (h.provider.embed r)

/-- Answer a request for images. -/
def draw (h : Handle σ) (r : Image.Request) : Action σ Image.Response :=
  h.require .imageGeneration (h.provider.draw r)

/-- Answer a request of the responses protocol. -/
def respond (h : Handle σ) (r : Responses.Request) : Action σ Responses.Response :=
  h.require .responses (h.provider.respond r)

/-- Open the stream of an answer of the responses protocol. -/
def respondStream (h : Handle σ) (r : Responses.Request) :
    Action σ (List (Arrival Responses.Event)) :=
  h.require .responsesStream (h.provider.respondStream r)

end Handle

end Switchboard
