import Switchboard.Relay.Delivery

/-!
# A delivery and the task that reads for it

The stream is read by a task of its own. It puts the fragments into a queue, reports a
failure, and hangs up. The loop that delivers waits for what comes: each time it looks for
a fragment, then for a failure, and then at the clock, which tells whether the time limit
has run out since the wait began. Reader, loop and clock take turns in any order, so the
reader may have read on, and the clock have rung, between two looks of the loop.
-/

namespace Switchboard.Delivery

variable {ρ φ : Type}

/-- How many fragments may wait for the loop. -/
def queueCapacity : Nat := 32

/-- Where the loop stands. -/
inductive Stage where
  /-- It looks for a fragment next. -/
  | waiting
  /-- It found no fragment, and looks for a failure next. -/
  | unserved
  /-- It found no failure either, and looks at the clock next. -/
  | unfailed
  /-- It has come to its end, and the reader with it. -/
  | ended (failure : Option Error)
  deriving DecidableEq

/-- A reader, and the loop that it reads for. -/
structure Handover (ρ φ : Type) where
  /-- How long the loop waits, in nanoseconds. -/
  limit : Nat
  /-- What the reader has yet to read. -/
  unread : List (Arrival φ)
  /-- The fragments that wait for the loop. -/
  queue : List φ
  /-- The failure that the reader reported. -/
  reported : Option Error
  /-- Whether the reader hung up. -/
  hungUp : Bool
  /-- Whether the time limit has run out in this wait. -/
  late : Bool
  /-- The fragments that the relay was given. -/
  given : List φ
  relay : ρ
  client : Client
  stage : Stage

/-- Whose turn it is. -/
inductive Party where
  | reader
  | loop
  | clock
  deriving DecidableEq

namespace Handover

/-- Nothing has been read yet. -/
def start (limit : Nat) (arrivals : List (Arrival φ)) (r : ρ) (c : Client) : Handover ρ φ where
  limit := limit
  unread := arrivals
  queue := []
  reported := none
  hungUp := false
  late := false
  given := []
  relay := r
  client := c
  stage := .waiting

/-- The reader reads on. It waits while the queue is full, and reports a failure before it hangs
up. -/
def read (h : Handover ρ φ) : Handover ρ φ :=
  if h.hungUp then h
  else if h.reported.isSome then { h with hungUp := true }
  else match h.unread with
    | [] => { h with hungUp := true }
    | .item a :: rest =>
      if h.queue.length < queueCapacity then { h with unread := rest, queue := h.queue ++ [a] }
      else h
    | .failed e :: rest => { h with unread := rest, reported := some e }
    | .silence :: _ => h

/-- The time limit runs out. -/
def ring (h : Handover ρ φ) : Handover ρ φ := { h with late := true }

variable [Relay ρ φ]

/-- The relay is given the fragment in front of the others, and a new wait begins. -/
def give (h : Handover ρ φ) (a : φ) (others : List φ) : Handover ρ φ :=
  let (r, events) := Relay.accept a h.relay
  let (c, all) := send h.client events
  { h with
    queue := others
    late := false
    given := h.given ++ [a]
    relay := if all then r else Relay.close r
    client := c
    stage := if all && !Relay.isClosed r then .waiting else .ended none }

/-- The relay is told the end of the stream. -/
def finish (h : Handover ρ φ) : Handover ρ φ :=
  let (r, events) := Relay.finish h.relay
  let (c, all) := send h.client events
  { h with relay := if all then r else Relay.close r, client := c, stage := .ended none }

/-- The loop looks for a fragment. There will be none if the reader hung up. -/
def lookForFragment (h : Handover ρ φ) : Handover ρ φ :=
  if h.client.isGone then { h with relay := Relay.close h.relay, stage := .ended none }
  else match h.queue with
    | a :: others => h.give a others
    | [] =>
      if h.hungUp then
        match h.reported with
        | some e => { h with stage := .ended (some e) }
        | none => h.finish
      else { h with stage := .unserved }

/-- The loop looks for a failure. -/
def lookForFailure (h : Handover ρ φ) : Handover ρ φ :=
  match h.reported with
  | some e => { h with stage := .ended (some e) }
  | none => { h with stage := .unfailed }

/-- The loop looks at the clock. -/
def lookAtClock (h : Handover ρ φ) : Handover ρ φ :=
  if h.late then { h with stage := .ended (some (timeout h.limit)) }
  else { h with stage := .waiting }

/-- Take a turn. When the loop has ended there are none to take. -/
def take (h : Handover ρ φ) (who : Party) : Handover ρ φ :=
  match h.stage, who with
  | .ended _, _ => h
  | _, .reader => h.read
  | _, .clock => h.ring
  | .waiting, .loop => h.lookForFragment
  | .unserved, .loop => h.lookForFailure
  | .unfailed, .loop => h.lookAtClock

/-- Take turns, one after another. -/
def after (h : Handover ρ φ) (turns : List Party) : Handover ρ φ := turns.foldl take h

/-- How the loop leaves things. -/
def outcome (h : Handover ρ φ) (failure : Option Error) : Outcome ρ :=
  ⟨h.relay, h.client, failure⟩

/-- How the delivery ends, once the loop has. -/
def result? (h : Handover ρ φ) : Option (Outcome ρ) :=
  match h.stage with
  | .ended failure => some (conclude (h.outcome failure))
  | _ => none

end Handover

end Switchboard.Delivery
