import Switchboard.Backend.OfChannel
import Switchboard.Health.Category
import Switchboard.Health.Policy
import Switchboard.Health.Surroundings

/-!
# Probes

A probe sends a small request to a channel. A backend may answer a plain request with an
event stream; the probe is then made once more, streamed, and the first fragment counts
as success. A probe that reached the provider leaves one record in the journal, which
tells how its last attempt came out.
-/

namespace Switchboard.Health

variable {σ : Type} [Tokenizer]

/-- A probe that succeeded. -/
structure Success where
  model : String
  category : Category
  stream : Bool
  usage : Chat.Usage
  deriving DecidableEq, Repr

namespace Probe

/-- What models are asked in a probe. -/
def prompt : String := "You just need to output 'hi' next."

/-- How many tokens the answer to a streamed probe may have. -/
def maxTokens : Nat := 10

/-- What the texts of errors contain that come from an event stream in place of an
answer. -/
def eventStreamMarkers : List String := ["data:", "invalid character 'd'", "streaming response"]

/-- Whether an error shows that the backend answered with an event stream. -/
def showsEventStream (e : Error) : Bool := eventStreamMarkers.any (Text.contains e.display)

/-! ## Requests -/

/-- The request for a model of embeddings. -/
def embeddingRequest (model : String) : Embedding.Request := ⟨model, .single "hi"⟩

/-- The request for a model of images. -/
def imageRequest (model : String) : Image.Request := ⟨model, "A cute cat", 1, none⟩

/-- The request for a model of the responses protocol. -/
def responsesRequest (model : String) (stream : Bool) : Responses.Request :=
  ⟨model, prompt, none, stream⟩

/-- The request for a chat model that is asked in terms of chat. -/
def chatRequest (model : String) (maxTokens : Option Nat) (stream : Bool) : Chat.Request where
  model := model
  messages := [.ofText .user prompt]
  maxTokens := maxTokens
  temperature := none
  topP := none
  stop := none
  tools := none
  toolChoice := none
  parallelToolCalls := none
  stream := stream

/-- The request for a chat model that is asked in terms of messages. -/
def messageRequest (model : String) (stream : Bool) : Claude.Request where
  model := model
  messages := [⟨.user, .text prompt⟩]
  system := none
  maxTokens := maxTokens
  temperature := none
  topP := none
  topK := none
  stopSequences := none
  tools := none
  toolChoice := none
  stream := some stream
  metadata := none
  thinking := none

/-! ## Attempts -/

/-- The usage of an attempt that was told none. -/
def noUsage : Chat.Usage := .of 0 0

/-- The attempt that is not streamed. -/
def call (h : Handle σ) (category : Category) (model : String) : Action σ Chat.Usage :=
  match category with
  | .embeddings => do return (← h.embed (embeddingRequest model)).usage.getD noUsage
  | .image => do
    let _ ← h.draw (imageRequest model)
    return noUsage
  | .responses => do
    match (← h.respond (responsesRequest model false)).usage with
    | some usage => return .of usage.inputTokens usage.outputTokens
    | none => return noUsage
  | .chat | .unsupported =>
    if h.supports .chat then do
      return (← h.chat (chatRequest model none false)).usage.getD noUsage
    else do
      let usage := (← h.message (messageRequest model false)).usage
      return .of usage.inputTokens usage.outputTokens

/-- Whether a stream yields a fragment within a time limit. -/
def firstFragment {φ : Type} (limit : Nat) : List (Arrival φ) → Except Error Chat.Usage
  | .item _ :: _ => .ok noUsage
  | .failed e :: _ => .error e
  | [] => .error (.connection "stream ended without data")
  | .silence :: _ =>
    .error (.connection ("no stream data within " ++ toString (limit / Duration.second) ++ "s"))

/-- The first fragment of a chat stream, or of a message stream where chat is not
streamed. -/
def firstChatFragment (h : Handle σ) (model : String) (limit : Nat) : Action σ Chat.Usage :=
  if h.supports .chatStream then do
    let chunks ← h.chatStream (chatRequest model (some maxTokens) true)
    Action.ofExcept (firstFragment limit chunks)
  else do
    match ← h.messageStream (messageRequest model true) with
    | .events arrivals => Action.ofExcept (firstFragment limit arrivals)
    | .chunks arrivals _ => Action.ofExcept (firstFragment limit arrivals)

/-- The streamed attempt. -/
def callStream (h : Handle σ) (category : Category) (model : String) (limit : Nat) :
    Action σ Chat.Usage :=
  match category with
  | .chat => firstChatFragment h model limit
  | .responses => do
    let events ← h.respondStream (responsesRequest model true)
    Action.ofExcept (firstFragment limit events)
  | category =>
    throw (.channel (category.name ++ " models cannot be probed in streaming mode"))

/-- An attempt: whether it was streamed, and how it came out. -/
structure Attempt where
  stream : Bool
  result : Except Error Chat.Usage

/-- The attempts of a probe: the first one, and the streamed one if it is made. -/
def attempts (h : Handle σ) (category : Category) (model : String) (limit : Nat) :
    StateM (Session σ) (Attempt × Option Attempt) := do
  let first ← (call h category model).run
  match first with
  | .error e =>
    if showsEventStream e then
      let second ← (callStream h category model limit).run
      return (⟨false, first⟩, some ⟨true, second⟩)
    else return (⟨false, first⟩, none)
  | .ok _ => return (⟨false, first⟩, none)

/-! ## The journal -/

/-- The record of a probe whose last attempt is given. -/
def record (c : Channel) (model : String) (elapsed : Nat) (last : Attempt) : Record :=
  let metadata :=
    [("test_type", "channel_test"), ("channel_name", c.name), ("channel_type", c.kind.name)]
  let (usage, stream, content, metadata) := match last.result with
    | .ok usage =>
      (usage, last.stream,
        if last.stream then "channel test succeeded (stream)" else "channel test succeeded",
        metadata)
    | .error e => (noUsage, false, "channel test failed", metadata ++ [("error", e.display)])
  { userId := 1
    channelId := c.id
    model := model
    promptTokens := usage.promptTokens
    completionTokens := usage.completionTokens
    quota := 0
    content := content
    elapsed := elapsed
    stream := stream
    metadata := metadata
    clientAddress := "127.0.0.1" }

/-! ## The probe -/

/-- The model to probe with: the one asked for, or else the channel's own. An empty name
is none. -/
def model? (c : Channel) (asked : Option String) : Option String :=
  ((asked.filter fun m => !m.isEmpty).or c.testModel).filter fun m => !m.isEmpty

/-- Read the watch. -/
def watch (s : Surroundings σ) : StateM (Session σ) Nat := fun session =>
  let (t, world) := s.watch session.world
  (t, { session with world := world })

/-- Append a record to the journal. -/
def append (s : Surroundings σ) (r : Record) : StateM (Session σ) Unit := fun session =>
  ((), { session with world := s.journal r session.world })

/-- Probe a channel, with the model asked for or its own. -/
def run (s : Surroundings σ) (relay : RelaySettings) (health : HealthSettings) (c : Channel)
    (asked : Option String) : StateM (Session σ) (Except Failure Success) := do
  match model? c asked with
  | none => return .error (.noTestModel c.id)
  | some model =>
    let category := Category.ofModel model
    if category = .unsupported then return .error (.unsupportedModel model)
    else match Handle.ofChannel s.network relay c with
      | .error e => return .error (.probe e)
      | .ok h =>
        let start ← watch s
        let (first, second) ← attempts h category model (health.streamTimeoutFor model)
        let last := second.getD first
        let stop ← watch s
        append s (record c model (stop - start) last)
        match last.result with
        | .ok usage => return .ok ⟨model, category, last.stream, usage⟩
        | .error e => return .error (.probe e)

end Probe

end Switchboard.Health
