import Switchboard.Error
import Switchboard.Relay.Basic

/-!
# Delivering a stream to a client

A stream is the list of what arrives: fragments, a failure, or silence, after which
nothing arrives any more. A client takes events until it refuses one or goes away. The
delivery feeds the fragments to a relay and the events to the client, one after another.
A client that went away ends it quietly; a failure, or a silence longer than the time
limit, is told to the client in an error event and returned.

`loop` and `run` have the arrivals come one by one, as they do where all tasks share one
thread. `Handover` has the task that reads them, and the clock, beside the loop.
-/

namespace Switchboard

open Claude (Event Usage)

/-- What a stream yields next. -/
inductive Arrival (φ : Type) where
  | item (fragment : φ)
  | failed (error : Error)
  | silence
  deriving DecidableEq, Repr

/-- The arrivals of a stream with each fragment changed. -/
def Arrival.map {φ ψ : Type} (f : φ → ψ) : Arrival φ → Arrival ψ
  | item a => .item (f a)
  | failed e => .failed e
  | silence => .silence

/-- A client: what it took so far, how much it takes before it refuses, and after how
many events it goes away. -/
structure Client where
  taken : List Event
  capacity : Option Nat
  leavesAfter : Option Nat
  deriving DecidableEq, Repr

namespace Client

/-- Whether the client went away. -/
def isGone (c : Client) : Bool := c.leavesAfter.any (· ≤ c.taken.length)

/-- Whether the client refuses the next event. -/
def isFull (c : Client) : Bool := c.capacity.any (· ≤ c.taken.length)

/-- Hand an event to the client; nothing if it refuses. -/
def take? (c : Client) (event : Event) : Option Client :=
  if c.isFull then none else some { c with taken := c.taken ++ [event] }

end Client

namespace Delivery

/-- Hand events to the client, until it refuses or is gone: the client, and whether it
took all of them. -/
def send (c : Client) : List Event → Client × Bool
  | [] => (c, true)
  | event :: rest =>
    if c.isGone then (c, false)
    else match c.take? event with
      | some c => send c rest
      | none => (c, false)

/-- Silence outlasted the time limit, given in nanoseconds. -/
def timeout (limit : Nat) : Error :=
  .connection ("no data from upstream within " ++ toString (limit / 1000000000) ++ "s")

variable {ρ φ : Type} [Relay ρ φ]

/-- How a delivery ends: the relay, the client and the failure, if there was one. -/
structure Outcome (ρ : Type) where
  relay : ρ
  client : Client
  failure : Option Error
  deriving DecidableEq, Repr

/-- Feed the arrivals to the relay and its events to the client. -/
def loop (limit : Nat) : List (Arrival φ) → ρ → Client → Outcome ρ
  | arrivals, r, c =>
    if c.isGone then ⟨Relay.close r, c, none⟩
    else match arrivals with
      | .item fragment :: rest =>
        let (r, events) := Relay.accept fragment r
        let (c, all) := send c events
        if !all then ⟨Relay.close r, c, none⟩
        else if Relay.isClosed r then ⟨r, c, none⟩
        else loop limit rest r c
      | [] =>
        let (r, events) := Relay.finish r
        let (c, all) := send c events
        ⟨if all then r else Relay.close r, c, none⟩
      | .failed error :: _ => ⟨r, c, some error⟩
      | .silence :: _ => ⟨r, c, some (timeout limit)⟩

/-- The event that tells a client about a failure. -/
def errorEvent (e : Error) : Event := .error ⟨e.kind, e.clientMessage⟩

/-- What is left to do when the loop has ended: a client that is still there is told about
a failure, unless its message is finished. -/
def conclude (out : Outcome ρ) : Outcome ρ :=
  match out.failure with
  | none => out
  | some error =>
    if Relay.isClosed out.relay || out.client.isGone then out
    else { out with client := (out.client.take? (errorEvent error)).getD out.client }

/-- What arrives within a time limit, on one thread: a limit of zero has run out before
anything is read. -/
def inTime (limit : Nat) (arrivals : List (Arrival φ)) : List (Arrival φ) :=
  if limit = 0 then [.silence] else arrivals

/-- Deliver a stream, on one thread. -/
def run (limit : Nat) (arrivals : List (Arrival φ)) (r : ρ) (c : Client) : Outcome ρ :=
  conclude (loop limit (inTime limit arrivals) r c)

end Delivery

end Switchboard
