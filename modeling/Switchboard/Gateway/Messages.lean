import Switchboard.Gateway.Background
import Switchboard.Gateway.Safety
import Switchboard.Provider.Adapter
import Switchboard.Relay.Merging
import Switchboard.Relay.PerChunk
import Switchboard.Relay.Verbatim

/-!
# Serving messages

Background tasks are answered without a provider. Every other request passes the safety
gate and goes to a provider that serves messages, directly or through chat. A stream is
opened first and then relayed to a client, so that a failure to open it is known before
anything is written.
-/

namespace Switchboard.Gateway

open Claude (Request Response Usage)

variable {σ : Type} [Tokenizer]

/-- What a gateway does to every request. -/
structure Policy where
  readTimeout : Nat
  checker : Option Checker

/-- The policy that the settings ask for. -/
def Policy.ofSettings (s : RelaySettings) : Policy where
  readTimeout := s.streamReadTimeout
  checker := if s.contentSafety then some (keywordChecker s.blockedKeywords) else none

/-- Fail if there is a checker and it refuses the request. -/
def Policy.check (p : Policy) (r : Request) : Except Error Unit :=
  match p.checker with
  | some checker => gate checker r
  | none => .ok ()

/-- Answer a request that is not streamed. -/
def message (p : Policy) (h : Handle σ) (r : Request) : Action σ Response := do
  if isBackgroundTask r then
    return backgroundResponse r.model (← Action.now)
  else
    Action.ofExcept (p.check r)
    let h ← Action.ofExcept h.serveMessages
    h.message r

/-- Where the events of an open stream come from. -/
inductive Source where
  | background
  | provider (stream : MessageStream) (promptTokens : Nat)
  deriving Repr

/-- A stream that waits to be relayed. -/
structure OpenStream where
  source : Source
  model : String
  readTimeout : Nat
  deriving Repr

/-- Open the stream of a request. -/
def openStream (p : Policy) (h : Handle σ) (r : Request) : Action σ OpenStream := do
  if isBackgroundTask r then
    return ⟨.background, r.model, p.readTimeout⟩
  else
    Action.ofExcept (p.check r)
    let h ← Action.ofExcept h.serveMessages
    return ⟨.provider (← h.messageStream r) (Tokens.ofPrompt r), r.model, p.readTimeout⟩

/-- A relayed stream: the client after it, and the usage that was reported or why the
stream broke off. -/
structure Relayed where
  client : Client
  result : Except Error (Option Usage)

/-- How a delivery ended, as the result of relaying. -/
def Relayed.ofOutcome {ρ φ : Type} [Relay ρ φ] (out : Delivery.Outcome ρ) : Relayed where
  client := out.client
  result := match out.failure with
    | some error => .error error
    | none => .ok (Relay.usage? out.relay)

/-- Hand events to a client until it refuses one, whether or not it is gone. -/
def offer (c : Client) : List Claude.Event → Client
  | [] => c
  | event :: rest =>
    match c.take? event with
    | some c => offer c rest
    | none => c

/-- Relay an open stream to a client. A background task ends with an error, so that no
usage is counted for it. -/
def OpenStream.relay (s : OpenStream) (now : Instant) (c : Client) : Relayed :=
  match s.source with
  | .background => ⟨offer c (backgroundEvents s.model now), .error .backgroundTask⟩
  | .provider (.events arrivals) _ =>
    .ofOutcome (Delivery.run s.readTimeout arrivals Relay.Verbatim.start c)
  | .provider (.chunks arrivals .merging) prompt =>
    .ofOutcome (Delivery.run s.readTimeout arrivals (Relay.Merging.start s.model prompt now) c)
  | .provider (.chunks arrivals .perChunk) prompt =>
    .ofOutcome (Delivery.run s.readTimeout arrivals (Relay.PerChunk.start s.model prompt now) c)

end Switchboard.Gateway
