import Switchboard.Config.Address
import Switchboard.Config.Channel
import Switchboard.Config.Duration
import Switchboard.Text.Search

/-!
# Settings

The configuration of the gateway: its server, its relay, its health monitor and its
channels, in routing order. What is left out has a default, and what is not known is
refused. Durations are in nanoseconds.
-/

namespace Switchboard

open Json

/-- Where the gateway listens, and whether and where it says that it is alive. -/
structure ServerSettings where
  listenAddress : Option SocketAddress
  healthEnabled : Bool
  healthPath : String
  deriving DecidableEq, Repr

/-- How answers are passed on. -/
structure RelaySettings where
  /-- The longest wait between two fragments of a stream. -/
  streamReadTimeout : Nat
  /-- Whether the errors of providers are marked as theirs. -/
  providerErrorPrefix : Bool
  /-- Whether messages are searched for blocked keywords. -/
  contentSafety : Bool
  blockedKeywords : List String
  deriving DecidableEq, Repr

/-- How channels are probed, and what comes of it. -/
structure HealthSettings where
  /-- The pause before each probe of a sweep. -/
  requestInterval : Nat
  /-- The latency that disables a channel; zero for none. -/
  disableThreshold : Nat
  /-- Whether errors may disable a channel. -/
  autoDisable : Bool
  /-- The minutes between two sweeps; zero for no sweeps. -/
  frequencyMinutes : Nat
  /-- The longest wait of a streamed probe. -/
  streamTimeout : Nat
  /-- The longest wait of a streamed probe of a slow model. -/
  slowStreamTimeout : Nat
  /-- What the names of slow models contain. -/
  slowStreamMarkers : List String
  /-- Where reports are posted. -/
  notifyWebhook : Option String
  deriving DecidableEq, Repr

/-- The whole configuration. -/
structure Settings where
  server : ServerSettings
  relay : RelaySettings
  health : HealthSettings
  channels : List Channel
  deriving DecidableEq, Repr

/-- A server that says at `/health` that it is alive. -/
def ServerSettings.default : ServerSettings := ⟨none, true, "/health"⟩

/-- A minute of waiting, marked errors and no search for keywords. -/
def RelaySettings.default : RelaySettings := ⟨60 * Duration.second, true, false, []⟩

/-- No sweeps by themselves. Errors may disable a channel, latency does not. -/
def HealthSettings.default : HealthSettings where
  requestInterval := 0
  disableThreshold := 0
  autoDisable := true
  frequencyMinutes := 0
  streamTimeout := 10 * Duration.second
  slowStreamTimeout := 15 * Duration.second
  slowStreamMarkers := ["gemini"]
  notifyWebhook := none

/-- The configuration with nothing in it. -/
def Settings.default : Settings := ⟨.default, .default, .default, []⟩

/-- The longest wait of a streamed probe of a model. -/
def HealthSettings.streamTimeoutFor (h : HealthSettings) (model : String) : Nat :=
  if h.slowStreamMarkers.any (Text.contains model) then h.slowStreamTimeout else h.streamTimeout

/-! ## Reading -/

/-- Whether and where the server says that it is alive. -/
def ServerSettings.health? (v : Json) : Option (Bool × String) := do
  let r ← closedRecord? ["enabled", "path"] v
  return (← r.orDefault "enabled" true bool?, ← r.orDefault "path" "/health" string?)

/-- Read the settings of the server. -/
def ServerSettings.ofJson? (v : Json) : Option ServerSettings := do
  let r ← closedRecord? ["listen_address", "health"] v
  let address ← r.optional "listen_address" fun a => a.string?.bind SocketAddress.ofText?
  let (enabled, path) ← r.orDefault "health" (true, "/health") health?
  return ⟨address, enabled, path⟩

/-- Read the settings of the relay. -/
def RelaySettings.ofJson? (v : Json) : Option RelaySettings := do
  let d := RelaySettings.default
  let r ← closedRecord? ["stream_read_timeout", "provider_error_prefix", "content_safety",
    "blocked_keywords"] v
  return ⟨← r.orDefault "stream_read_timeout" d.streamReadTimeout Duration.ofJson?,
    ← r.orDefault "provider_error_prefix" d.providerErrorPrefix bool?,
    ← r.orDefault "content_safety" d.contentSafety bool?,
    ← r.orDefault "blocked_keywords" d.blockedKeywords (listOf? string?)⟩

/-- The fields of the health settings. -/
def HealthSettings.fieldNames : List String :=
  ["request_interval", "disable_threshold", "auto_disable", "frequency_minutes",
    "stream_timeout", "slow_stream_timeout", "slow_stream_markers", "notify_webhook"]

/-- Read the settings of the health monitor. -/
def HealthSettings.ofJson? (v : Json) : Option HealthSettings := do
  let d := HealthSettings.default
  let r ← closedRecord? fieldNames v
  return {
    requestInterval := ← r.orDefault "request_interval" d.requestInterval Duration.ofJson?
    disableThreshold := ← r.orDefault "disable_threshold" d.disableThreshold Duration.ofJson?
    autoDisable := ← r.orDefault "auto_disable" d.autoDisable bool?
    frequencyMinutes := ← r.orDefault "frequency_minutes" d.frequencyMinutes u64?
    streamTimeout := ← r.orDefault "stream_timeout" d.streamTimeout Duration.ofJson?
    slowStreamTimeout := ← r.orDefault "slow_stream_timeout" d.slowStreamTimeout Duration.ofJson?
    slowStreamMarkers := ← r.orDefault "slow_stream_markers" d.slowStreamMarkers (listOf? string?)
    notifyWebhook := ← r.optional "notify_webhook" string? }

/-- Settings; some values beside a name count as nothing. -/
def Settings.read? (isNothing : Json → Bool) (v : Json) : Option Settings := do
  let r ← closedRecord? ["server", "relay", "health", "channels"] v
  return ⟨← r.orDefault "server" .default ServerSettings.ofJson?,
    ← r.orDefault "relay" .default RelaySettings.ofJson?,
    ← r.orDefault "health" .default HealthSettings.ofJson?,
    ← r.orDefault "channels" [] (listOf? (Channel.read? isNothing))⟩

/-- Read a configuration, where only null beside a name counts as nothing. -/
def Settings.ofJson? (v : Json) : Option Settings := Settings.read? isNull v

end Switchboard
