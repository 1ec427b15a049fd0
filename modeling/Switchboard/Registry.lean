import Switchboard.Config.Settings

/-!
# The registry

The configured channels with what is learned about them at run time: their status, the
last response time, and why they were disabled automatically. Channels keep the order of
the configuration, and the first enabled one that serves a model gets its requests.
-/

namespace Switchboard

/-- A channel with what is known about it. Times are in nanoseconds. -/
structure Registry.Entry where
  channel : Channel
  responseTime : Option Nat
  disabledReason : Option String
  deriving DecidableEq, Repr

/-- The channels in the order of the configuration. -/
structure Registry where
  entries : List Registry.Entry
  deriving DecidableEq, Repr

namespace Registry

/-- There is no channel with an id. -/
structure UnknownChannel where
  id : Nat
  deriving DecidableEq, Repr

/-- What is said about a missing channel. -/
def UnknownChannel.message (e : UnknownChannel) : String := "unknown channel " ++ toString e.id

/-- The registry of channels of which nothing is known yet. -/
def ofChannels (channels : List Channel) : Registry := ⟨channels.map fun c => ⟨c, none, none⟩⟩

/-- The channels as they are now. -/
def channels (r : Registry) : List Channel := r.entries.map (·.channel)

/-- The first entry with an id. -/
def entry? (r : Registry) (id : Nat) : Option Entry := r.entries.find? fun e => e.channel.id == id

/-- The channel with an id. -/
def channel? (r : Registry) (id : Nat) : Option Channel := (r.entry? id).map (·.channel)

/-- The last response time of the channel with an id. -/
def responseTime? (r : Registry) (id : Nat) : Option Nat := (r.entry? id).bind (·.responseTime)

/-- Why the channel with an id was disabled automatically. -/
def disabledReason? (r : Registry) (id : Nat) : Option String :=
  (r.entry? id).bind (·.disabledReason)

/-- The id of the first enabled channel that serves a model. -/
def select? (r : Registry) (model : String) : Option Nat :=
  (r.channels.find? fun c => c.isEnabled && c.serves model).map (·.id)

/-- Change the first entry with an id. -/
def modifyFirst (id : Nat) (f : Entry → Entry) : List Entry → Option (List Entry)
  | [] => none
  | e :: rest =>
    if e.channel.id = id then some (f e :: rest)
    else (modifyFirst id f rest).map (e :: ·)

/-- Change the first entry with an id, if there is one. -/
def modify (r : Registry) (id : Nat) (f : Entry → Entry) : Except UnknownChannel Registry :=
  match modifyFirst id f r.entries with
  | some entries => .ok ⟨entries⟩
  | none => .error ⟨id⟩

/-- The entry with a status. A reason is kept for a channel that is disabled
automatically, and for no other. -/
def Entry.withStatus (status : ChannelStatus) (reason : String) (e : Entry) : Entry :=
  { e with
    channel := { e.channel with status := status }
    disabledReason := if status = .autoDisabled then some reason else none }

/-- Give the channel with an id a status. -/
def setStatus (r : Registry) (id : Nat) (status : ChannelStatus) (reason : String) :
    Except UnknownChannel Registry := r.modify id (.withStatus status reason)

/-- Give the channel with an id a response time. -/
def setResponseTime (r : Registry) (id time : Nat) : Except UnknownChannel Registry :=
  r.modify id fun e => { e with responseTime := some time }

end Registry

end Switchboard
