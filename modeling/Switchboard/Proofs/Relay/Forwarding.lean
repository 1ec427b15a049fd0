import Switchboard.Proofs.Message.Reply
import Switchboard.Proofs.Relay.Action
import Switchboard.Relay.Verbatim

/-!
# What a verbatim relay forwards and accounts for

A verbatim relay passes on what it is given, as it is, up to the first stop of a message, and no
further than to the end of the stream (`Forwards`). It has usage as soon as it has passed on a
closing delta : the output tokens are those of the last one, and so are the input tokens, unless
the delta has none, in which case they are those of the last start of a message in front of it
(`IsUsageOf`).

The events need not be those of a message. Starts and closing deltas may be missing, repeated or
out of order, and what comes behind the first stop counts for nothing. So the invariant
(`Tracks`) speaks of the list of all events that were passed on, and `run_start_forwards` is what
it comes to.
-/

namespace Switchboard.Relay.Verbatim

open Claude (Event Usage closings closings_append)

/-! ## What is forwarded -/

/-- The events that a relay is given up to the first stop of a message, the stop included, or up
to the first time that the stream ends or the relay is closed. -/
def Forwards (actions : List (Action Event)) (events : List Event) : Prop :=
  ∃ rest, actions = events.map .accept ++ rest ∧
    ((.messageStop ∉ events ∧ ∀ event, rest.head? ≠ some (.accept event)) ∨
      ∃ front, events = front ++ [.messageStop] ∧ .messageStop ∉ front)

theorem forwards_nil {actions : List (Action Event)}
    (h : ∀ event, actions.head? ≠ some (.accept event)) : Forwards actions [] :=
  ⟨actions, rfl, .inl ⟨List.not_mem_nil, h⟩⟩

theorem forwards_stop (actions : List (Action Event)) :
    Forwards (.accept .messageStop :: actions) [.messageStop] :=
  ⟨actions, rfl, .inr ⟨[], rfl, List.not_mem_nil⟩⟩

theorem Forwards.cons {actions : List (Action Event)} {events : List Event} {event : Event}
    (h : Forwards actions events) (goesOn : event ≠ .messageStop) :
    Forwards (.accept event :: actions) (event :: events) := by
  obtain ⟨rest, rfl, ⟨noStop, ends⟩ | ⟨front, rfl, noStop⟩⟩ := h
  · exact ⟨rest, rfl, .inl ⟨List.not_mem_cons_of_ne_of_not_mem goesOn.symm noStop, ends⟩⟩
  · exact ⟨rest, rfl, .inr ⟨event :: front, rfl,
      List.not_mem_cons_of_ne_of_not_mem goesOn.symm noStop⟩⟩

/-! ## What is accounted for -/

/-- The input tokens that an event counts, if it starts a message. -/
def startTokens? : Event → Option Nat
  | .messageStart message => some message.usage.inputTokens
  | _ => none

/-- The input tokens that the last start of a message among events counts, or zero. -/
def startTokens (events : List Event) : Nat :=
  ((events.filterMap startTokens?).getLast?).getD 0

/-- What events say of the usage : nothing without a closing delta, and otherwise what the last
one says, with the input tokens of the last start in front of it if it has none. -/
def IsUsageOf (events : List Event) : Option Usage → Prop
  | none => closings events = []
  | some usage => ∃ front reason sequence closing back,
      events = front ++ .messageDelta reason sequence closing :: back ∧ closings back = [] ∧
        usage = .of (if 0 < closing.inputTokens then closing.inputTokens else startTokens front)
          closing.outputTokens

theorem startTokens_concat (events : List Event) (event : Event) :
    startTokens (events ++ [event]) = (startTokens? event).getD (startTokens events) := by
  rw [startTokens, List.filterMap_append]
  cases h : startTokens? event <;> simp [startTokens, h]

/-- An event that closes nothing leaves the usage as it is. -/
theorem IsUsageOf.concat {events : List Event} {usage? : Option Usage}
    (h : IsUsageOf events usage?) {event : Event} (quiet : event.closingDelta? = none) :
    IsUsageOf (events ++ [event]) usage? := by
  have last : closings [event] = [] := by simp [closings, quiet]
  cases usage? with
  | none =>
    have before : closings events = [] := h
    rw [IsUsageOf, closings_append, before, last]
    rfl
  | some usage =>
    obtain ⟨front, reason, sequence, closing, back, rfl, behind, counted⟩ := h
    refine ⟨front, reason, sequence, closing, back ++ [event], ?_, ?_, counted⟩
    · rw [List.append_assoc, List.cons_append]
    · rw [closings_append, behind, last]
      rfl

/-! ## Runs -/

/-- A relay that has passed on events and nothing else. -/
structure Tracks (r : Verbatim) (events : List Event) : Prop where
  inputTokens : r.inputTokens = startTokens events
  usage : IsUsageOf events r.usage

theorem tracks_start : Tracks start [] := ⟨rfl, rfl⟩

theorem Tracks.note {r : Verbatim} {events : List Event} (h : Tracks r events) (event : Event) :
    Tracks (r.note event) (events ++ [event]) := by
  have tokens := startTokens_concat events event
  cases event with
  | messageStart message => exact ⟨tokens.symm, h.usage.concat rfl⟩
  | messageDelta reason sequence closing =>
    refine ⟨h.inputTokens.trans tokens.symm, events, reason, sequence, closing, [], rfl, rfl, ?_⟩
    rw [← h.inputTokens]
  | _ => exact ⟨h.inputTokens.trans tokens.symm, h.usage.concat rfl⟩

theorem closed_note (r : Verbatim) {event : Event} (goesOn : event ≠ .messageStop) :
    (r.note event).closed = r.closed := by
  cases event with
  | messageStop => exact absurd rfl goesOn
  | _ => rfl

theorem accept_of_open {r : Verbatim} (h : r.closed = false) (event : Event) :
    (Action.accept event).step r = (r.note event, [event]) :=
  if_neg (Bool.eq_false_iff.mp h)

/-- Whatever is done to a closed relay changes nothing. -/
theorem run_of_closed {r : Verbatim} (h : r.closed = true) (actions : List (Action Event)) :
    run actions r = (r, []) := by
  have still : ∀ a : Action Event, a.step r = (r, []) := by
    intro a
    have same : { r with closed := true } = r := by rw [← h]
    cases a with
    | accept event => exact if_pos h
    | finish | close => exact congrArg (·, []) same
  induction actions with
  | nil => rfl
  | cons a rest ih => rw [run_cons, Step.seq_apply, still, ih, List.append_nil]

/-- The end of the stream, or being closed, leaves the usage as it is and closes the relay. -/
theorem run_of_left {r : Verbatim} {a : Action Event} (h : ∀ event, a ≠ .accept event)
    (rest : List (Action Event)) :
    run (a :: rest) r = ({ r with closed := true }, []) := by
  have left : a.step r = ({ r with closed := true }, []) := by
    cases a with
    | accept event => exact absurd rfl (h event)
    | finish | close => rfl
  rw [run_cons, Step.seq_apply, left, run_of_closed rfl, List.append_nil]

/-- An open relay that has passed on `before` passes on what it has to of the rest, and accounts
for all of it. -/
theorem Tracks.run {r : Verbatim} {before : List Event} (h : Tracks r before)
    (isOpen : r.closed = false) (actions : List (Action Event)) :
    Forwards actions (run actions r).2 ∧
      IsUsageOf (before ++ (run actions r).2) (run actions r).1.usage := by
  induction actions generalizing r before with
  | nil =>
    have idle : Relay.run ([] : List (Action Event)) r = (r, []) := rfl
    rw [idle, List.append_nil]
    exact ⟨forwards_nil nofun, h.usage⟩
  | cons a rest ih =>
    by_cases heard : ∃ event, a = .accept event
    · obtain ⟨event, rfl⟩ := heard
      have noted := h.note event
      rw [run_cons, Step.seq_apply, accept_of_open isOpen]
      by_cases stops : event = .messageStop
      · subst stops
        rw [run_of_closed rfl, List.append_nil]
        exact ⟨forwards_stop rest, noted.usage⟩
      · obtain ⟨forwards, accounts⟩ := ih noted ((closed_note r stops).trans isOpen)
        rw [List.append_assoc] at accounts
        exact ⟨forwards.cons stops, accounts⟩
    · have left : ∀ event, a ≠ .accept event := fun event e => heard ⟨event, e⟩
      rw [run_of_left left, List.append_nil]
      exact ⟨forwards_nil fun event e => left event (Option.some.inj e), h.usage⟩

/-- Whatever a verbatim relay is given and in whatever order, it emits exactly the events up to
the first stop of a message or to the end, and its usage is what these events say. -/
theorem run_start_forwards (actions : List (Action Event)) :
    Forwards actions (run actions start).2 ∧
      IsUsageOf (run actions start).2 (Relay.usage? (run actions start).1) :=
  tracks_start.run rfl actions

/-- A closing delta without input tokens has those of the start before it, and a stop hides what
comes behind. -/
example :
    let begun : Event := .messageStart (.empty "m" "m" (.of 25 1))
    let closing : Event := .messageDelta none none (.of 0 15)
    (run [.accept begun, .accept .ping, .accept closing, .accept .messageStop, .accept begun]
      start) = (⟨true, 25, some (.of 25 15)⟩, [begun, .ping, closing, .messageStop]) := by
  decide

end Switchboard.Relay.Verbatim
