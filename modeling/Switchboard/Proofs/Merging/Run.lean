import Switchboard.Proofs.Merging.Move

/-!
# Runs of a merging relay

Whatever is done to a fresh relay, it opens the message, takes its inputs one after
another and ends the message once (`run_start`). Between inputs the relay is at rest
(`AtRest`), so that a fact about one input carries over to all of them (`feed_induction`).
-/

namespace Switchboard.Relay.Merging

open Claude (Event StopReason closingEvents)

variable {r : Merging}

/-! ## At rest -/

/-- What holds of a relay between two inputs. -/
structure AtRest (r : Merging) : Prop extends Tidy r where
  rested : Rested r

theorem AtRest.take (h : AtRest r) (x : Input) : AtRest (x.take r).1 :=
  ⟨x.take_tidy h.toTidy h.rested, (x.take_moves h.toTidy h.rested).2⟩

theorem AtRest.moves (h : AtRest r) (x : Input) :
    Moves x.cuts (x.learn r) (x.take r).2 (x.take r).1 :=
  (x.take_moves h.toTidy h.rested).1

theorem atRest_start (model : String) (promptTokens : Nat) (now : Instant) :
    AtRest (start model promptTokens now) where
  numbered := nofun
  distinct := List.nodup_nil
  waiting := List.suffix_refl []
  current := nofun
  rested h := absurd rfl h

/-- Inputs do not touch the phase and what the relay started with. -/
theorem AtRest.take_frame (h : AtRest r) (x : Input) :
    (x.take r).1 = { r with
      nextIndex := (x.take r).1.nextIndex
      openBlock := (x.take r).1.openBlock
      text := (x.learn r).text
      calls := (x.take r).1.calls
      queued := (x.take r).1.queued
      lastUsage := (x.learn r).lastUsage } := by
  refine (h.moves x).frame.trans ?_
  cases x with
  | report usage | thinking content signature | text s => rfl
  | piece d =>
    by_cases known : d.index ∈ r.calls.indices
    · simp only [Input.learn, learnCall_of_known known]
    · simp only [Input.learn, learnCall_of_new known, enqueue, addCall]

/-- A property of relays and of the events so far that every input keeps is kept by
inputs one after another. -/
theorem feed_induction {P : Merging → List Event → Prop} (events : List Event) (xs : List Input)
    (keeps : ∀ (x : Input) (r : Merging) (events : List Event), AtRest r → P r events →
      P (x.take r).1 (events ++ (x.take r).2))
    (h : AtRest r) (hp : P r events) :
    AtRest (feed xs r).1 ∧ P (feed xs r).1 (events ++ (feed xs r).2) := by
  induction xs generalizing r events with
  | nil => exact ⟨h, by simpa [Step.emit] using hp⟩
  | cons x xs ih =>
    have hx := ih _ (h.take x) (keeps x r events h hp)
    rw [feed_cons, Step.seq_apply]
    simpa only [List.append_assoc] using hx

theorem AtRest.feed (h : AtRest r) (xs : List Input) : AtRest (feed xs r).1 :=
  (feed_induction (P := fun _ _ => True) [] xs (fun _ _ _ _ _ => trivial) h trivial).1

theorem AtRest.feed_frame (h : AtRest r) (xs : List Input) :
    (Merging.feed xs r).1 = { r with
      nextIndex := (Merging.feed xs r).1.nextIndex
      openBlock := (Merging.feed xs r).1.openBlock
      text := (Merging.feed xs r).1.text
      calls := (Merging.feed xs r).1.calls
      queued := (Merging.feed xs r).1.queued
      lastUsage := (Merging.feed xs r).1.lastUsage } :=
  (feed_induction (P := fun s _ => s = { r with
      nextIndex := s.nextIndex
      openBlock := s.openBlock
      text := s.text
      calls := s.calls
      queued := s.queued
      lastUsage := s.lastUsage }) [] xs
    (fun x s _ hs hp => by
      rw [hs.take_frame x]
      rw [hp]) h rfl).2

theorem AtRest.feed_phase (h : AtRest r) (xs : List Input) :
    (Merging.feed xs r).1.phase = r.phase := by
  rw [h.feed_frame xs]

theorem AtRest.feed_now (h : AtRest r) (xs : List Input) : (Merging.feed xs r).1.now = r.now := by
  rw [h.feed_frame xs]

/-! ## The beginning of the message -/

/-- Whether a run opens the message. -/
def opens : List (Action Chat.Chunk) → Bool
  | .accept _ :: _ | .finish :: _ => true
  | _ => false

/-- A relay that has opened its message. -/
def opened (model : String) (promptTokens : Nat) (now : Instant) : Merging :=
  { start model promptTokens now with phase := .streaming }

/-- The event that opens the message. -/
def openingEvent (model : String) (promptTokens : Nat) (now : Instant) : Event :=
  .messageStart (.empty now.messageId model (.of promptTokens 1))

variable (model : String) (promptTokens : Nat) (now : Instant)

theorem atRest_opened : AtRest (opened model promptTokens now) :=
  { atRest_start model promptTokens now with }

theorem openMessage_start : openMessage (start model promptTokens now) =
    (opened model promptTokens now, [openingEvent model promptTokens now]) :=
  rfl

/-! ## The end of the message -/

variable [Tokenizer]

theorem closeMessage_eq (reason : StopReason) (ht : Tidy r) :
    closeMessage reason r =
      ({ r with
          nextIndex := r.nextIndex + r.queued.length
          openBlock := none
          queued := []
          reported := some r.finalUsage
          phase := .closed },
        (settle { r with phase := .finishing }).2 ++
          closingEvents (some reason) none r.finalUsage) := by
  have hs := settle_fst (r := { r with phase := .finishing }) ht.known
  simp only [closeMessage, Step.all_cons, Step.all_nil, Step.seq_emit_nil, Step.seq_apply,
    Step.silent, hs, List.nil_append]
  rfl

/-- A closed relay stays as it is. -/
theorem run_of_closed (actions : List (Action Chat.Chunk)) (h : r.phase = .closed) :
    run actions r = (r, []) := by
  induction actions with
  | nil => rfl
  | cons a actions ih =>
    have ha : a.step r = (r, []) := by
      cases a with
      | accept chunk => exact if_pos h
      | finish => simp only [Action.step, Relay.finish, finish, h]
      | close =>
        show ({ r with phase := .closed }, []) = (r, [])
        rw [← h]
    rw [run_cons, Step.seq_apply, ha, ih, List.append_nil]

/-- While the message is open, a run takes the inputs and then ends the message. -/
theorem run_of_streaming (actions : List (Action Chat.Chunk)) (h : AtRest r)
    (hp : r.phase = .streaming) :
    run actions r = (feed (inputs actions)).seq (ending actions).step r := by
  induction actions generalizing r with
  | nil => rfl
  | cons a actions ih =>
    rw [run_cons, Step.seq_apply]
    cases a with
    | accept chunk =>
      have hf := h.feed (chunkInputs chunk)
      have hfp := (h.feed_phase (chunkInputs chunk)).trans hp
      have hs : (Action.accept chunk).step r =
          (feed (chunkInputs chunk)).seq (closeFor (finishReason? chunk)) r := by
        have he : ensureMessage r = (r, []) := if_neg (by rw [hp]; decide)
        show push chunk r = _
        rw [push_eq chunk (by rw [hp]; decide), Step.all_cons, Step.seq_apply, he]
        simp only [Step.all_cons, Step.all_nil, Step.seq_emit_nil, List.nil_append]
      cases hr : finishReason? chunk with
      | none =>
        rw [hr, closeFor, Step.forSome, Step.seq_emit_nil] at hs
        rw [hs, ih hf hfp, inputs_accept, hr, ending, hr]
        simp only [Option.isSome_none, Bool.false_eq_true, if_false, feed_append,
          Step.seq_apply, List.append_assoc]
      | some reason =>
        rw [hr, closeFor, Step.forSome, Step.seq_apply,
          closeMessage_eq _ hf.toTidy] at hs
        rw [hs, run_of_closed _ rfl, inputs_accept, hr, ending, hr]
        simp only [Option.isSome_some, if_true, List.append_nil, Step.seq_apply, Ending.step,
          closeMessage_eq _ hf.toTidy]
    | finish =>
      have hs : (Action.finish : Action Chat.Chunk).step r = closeMessage .endTurn r := by
        show finish r = _
        simp only [finish, hp]
      rw [hs, run_of_closed _ (by rw [closeMessage_eq _ h.toTidy])]
      exact congrArg (Prod.mk _) (List.append_nil _)
    | close =>
      rw [run_of_closed _ rfl]
      rfl

/-! ## Whole runs -/

theorem push_start (chunk : Chat.Chunk) : push chunk (start model promptTokens now) =
    openMessage.seq (push chunk) (start model promptTokens now) := by
  rw [Step.seq_apply, openMessage_start, push_eq chunk (by simp [start]),
    push_eq chunk (by simp [opened])]
  rfl

/-- A fresh relay opens the message, takes the inputs and ends the message. -/
theorem run_start {actions : List (Action Chat.Chunk)} (h : opens actions = true) :
    run actions (start model promptTokens now) =
      Step.all [openMessage, feed (inputs actions), (ending actions).step]
        (start model promptTokens now) := by
  have key : run actions (start model promptTokens now) =
      openMessage.seq (run actions) (start model promptTokens now) := by
    match actions, h with
    | .accept chunk :: rest, _ =>
      have hs : (Action.accept chunk).step = push chunk := rfl
      rw [run_cons, hs, ← Step.seq_assoc, Step.seq_apply, push_start, ← Step.seq_apply]
    | .finish :: rest, _ => rfl
  rw [key, Step.all_cons, Step.seq_apply, Step.seq_apply, openMessage_start,
    run_of_streaming actions (atRest_opened model promptTokens now) rfl]
  simp only [Step.all_cons, Step.all_nil, Step.seq_emit_nil]

/-- A run that does not open the message emits nothing. -/
theorem run_start_of_not_opens {actions : List (Action Chat.Chunk)} (h : opens actions = false) :
    run actions (start model promptTokens now) =
        (ending actions).step (start model promptTokens now) ∧
      (ending actions = .none ∨ ending actions = .left) := by
  match actions, h with
  | [], _ => exact ⟨rfl, .inl rfl⟩
  | .close :: rest, _ =>
    refine ⟨?_, .inr rfl⟩
    rw [run_cons, Step.seq_apply, run_of_closed _ rfl]
    rfl

/-- A run leaves the relay in the phase that its end says. -/
theorem phase_run_start (actions : List (Action Chat.Chunk)) :
    (run actions (start model promptTokens now)).1.phase = match ending actions with
      | .none => if opens actions then .streaming else .idle
      | .left | .stopped _ => .closed := by
  by_cases ho : opens actions = true
  · have h := (atRest_opened model promptTokens now).feed (inputs actions)
    have hp := (atRest_opened model promptTokens now).feed_phase (inputs actions)
    rw [run_start model promptTokens now ho, if_pos ho]
    simp only [Step.all_cons, Step.all_nil, Step.seq_emit_nil, Step.seq_apply, openMessage_start]
    cases ending actions with
    | none => exact hp
    | left => rfl
    | stopped reason =>
      show (closeMessage reason _).1.phase = _
      rw [closeMessage_eq reason h.toTidy]
  · obtain ⟨hr, he⟩ := run_start_of_not_opens model promptTokens now (Bool.eq_false_iff.mpr ho)
    rw [hr, if_neg ho]
    rcases he with he | he <;> rw [he] <;> rfl

/-- The events of a whole message : its start, those of the inputs, and its end. -/
theorem events_run_start {actions : List (Action Chat.Chunk)} {reason : StopReason}
    (stopped : ending actions = .stopped reason) :
    let r := (feed (inputs actions) (opened model promptTokens now)).1
    (run actions (start model promptTokens now)).2 = openingEvent model promptTokens now ::
      ((feed (inputs actions) (opened model promptTokens now)).2 ++ (closeMessage reason r).2) := by
  have ho : opens actions = true := by
    by_contra ho
    obtain ⟨-, he | he⟩ := run_start_of_not_opens model promptTokens now (Bool.eq_false_iff.mpr ho)
    all_goals rw [he] at stopped; cases stopped
  rw [run_start model promptTokens now ho, stopped]
  simp only [Step.all_cons, Step.all_nil, Step.seq_emit_nil, Step.seq_apply, openMessage_start]
  rfl

end Switchboard.Relay.Merging
