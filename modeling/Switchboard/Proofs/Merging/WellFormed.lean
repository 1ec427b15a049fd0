import Switchboard.Proofs.Merging.Run

/-!
# A merging relay emits one message

Whatever is done to a fresh relay, its events are the front of a message : blocks
numbered without gaps, one open at a time, each delta of the form of its block. The
message is whole exactly if a reason to stop, or the end of the stream, came before the
client went away; from then on the relay is silent (`run_start_wellFormed`).

The place in the message can be read off the relay (`place`), and every move leads from
the place before it to the one after it (`Move.read?_place`).
-/

namespace Switchboard.Relay.Merging

open Claude (Event IsMessage Place StopReason closingEvents)

variable {cut : Bool} {r r' : Merging} {xs : List Event}

/-- The place in the message that an open relay has come to. -/
def place (r : Merging) : Place :=
  match r.openBlock with
  | none => .between r.nextIndex
  | some b => .inside b.index b.kind.form

theorem place_of_open {b : OpenBlock} (h : r.openBlock = some b) :
    r.place = .inside b.index b.kind.form := by
  simp only [place, h]

theorem place_of_idle (h : r.openBlock = none) : r.place = .between r.nextIndex := by
  simp only [place, h]

theorem read?_callEvents (n : Nat) (c : Call) :
    (Place.between n).read? (callEvents n c) = some (.inside n .toolUse) := by
  have hb : (Place.between n).next? (.blockStart n (.toolUse c.id c.name (.object []))) =
      some (.inside n .toolUse) := if_pos rfl
  have hd : (Place.inside n .toolUse).next? (.blockDelta n (.inputJson c.arguments)) =
      some (.inside n .toolUse) := if_pos ⟨rfl, rfl⟩
  unfold callEvents
  split
  · simp only [Place.read?, hb, Option.bind_some]
  · simp only [Place.read?, hb, hd, Option.bind_some]

/-- A move emits what can be read at the place before it, up to the place after it. -/
theorem Move.read?_place (h : Move cut r xs r') (ht : Tidy r) :
    r.place.read? xs = some r'.place := by
  cases h with
  | stop isOpen _ =>
    rw [place_of_open isOpen, place_of_idle rfl, ht.numbered _ isOpen]
    simp [Place.read?, Place.next?]
  | start idle _ plain fresh =>
    rw [place_of_idle idle, place_of_open rfl]
    simp [Place.read?, Place.next?, fresh]
  | call idle first known =>
    rw [place_of_idle idle, place_of_open rfl]
    exact read?_callEvents r.nextIndex _
  | say isOpen _ plain fits =>
    rw [place_of_open isOpen]
    simp [Place.read?, Place.next?, fits]
  | grow isOpen =>
    rw [place_of_open isOpen, place_of_open (r := keep r _ _) isOpen]
    simp [Place.read?, Place.next?, Claude.Delta.form?, BlockKind.form]
  | hold notOpen => rfl

theorem Moves.read?_place (h : Moves cut r xs r') (ht : Tidy r) :
    r.place.read? xs = some r'.place := by
  induction h with
  | refl r => rfl
  | step first _ ih => exact Place.read?_append_of_eq (first.read?_place ht) (ih (first.tidy ht))

theorem Input.learn_place (x : Input) (r : Merging) : (x.learn r).place = r.place := by
  cases x with
  | report usage | thinking content signature | text s => rfl
  | piece d =>
    by_cases known : d.index ∈ r.calls.indices
    · rw [Input.learn, learnCall_of_known known]
      rfl
    · rw [Input.learn, learnCall_of_new known]
      rfl

theorem AtRest.read?_take (h : AtRest r) (x : Input) :
    r.place.read? (x.take r).2 = some (x.take r).1.place := by
  rw [← x.learn_place r]
  exact (h.moves x).read?_place (x.learn_tidy h.toTidy)

theorem AtRest.read?_feed (h : AtRest r) (inputs : List Input) :
    r.place.read? (Merging.feed inputs r).2 = some (Merging.feed inputs r).1.place := by
  have := feed_induction (P := fun s events => r.place.read? events = some s.place)
    [] inputs (fun x s events hs hp => Place.read?_append_of_eq hp (hs.read?_take x)) h
    rfl
  exact this.2

/-! ## Whole runs -/

variable [Tokenizer]

/-- The end of a message can be read wherever the relay is. -/
theorem AtRest.read?_closeMessage (h : AtRest r) (reason : StopReason) :
    r.place.read? (closeMessage reason r).2 = some .done := by
  have hc : Tidy { r with phase := .finishing } := { h.toTidy with }
  have hs := (settle_moves hc.known).read?_place hc
  rw [settle_fst hc.known] at hs
  rw [closeMessage_eq reason h.toTidy]
  exact Place.read?_append_of_eq hs rfl

/-- What an open relay emits leads from its place on, to the end if there is a reason to
stop. -/
theorem AtRest.read?_ending (h : AtRest r) (e : Ending) : ∃ p,
    r.place.read? (e.step r).2 = some p ∧ (p = .done ↔ ∃ reason, e = .stopped reason) := by
  cases e with
  | none | left =>
    refine ⟨r.place, rfl, ?_⟩
    unfold place
    cases r.openBlock <;> simp
  | stopped reason => exact ⟨.done, h.read?_closeMessage reason, by simp⟩

/-- The place that a run leads to, and whether it is the end. -/
theorem read?_run_start (model : String) (promptTokens : Nat) (now : Instant)
    (actions : List (Action Chat.Chunk)) : ∃ p,
    Place.before.read? (run actions (start model promptTokens now)).2 = some p ∧
      (p = .done ↔ ∃ reason, ending actions = .stopped reason) := by
  by_cases ho : opens actions = true
  · have h := atRest_opened model promptTokens now
    obtain ⟨p, hp, hd⟩ := (h.feed (inputs actions)).read?_ending (ending actions)
    refine ⟨p, ?_, hd⟩
    rw [run_start model promptTokens now ho]
    simp only [Step.all_cons, Step.all_nil, Step.seq_emit_nil, Step.seq_apply, openMessage_start]
    have hm : Place.before.read? [openingEvent model promptTokens now] =
        some (opened model promptTokens now).place := rfl
    exact Place.read?_append_of_eq hm (Place.read?_append_of_eq (h.read?_feed _) hp)
  · obtain ⟨hr, he⟩ := run_start_of_not_opens model promptTokens now (Bool.eq_false_iff.mpr ho)
    rw [hr]
    rcases he with he | he <;> exact ⟨.before, by rw [he]; rfl, by simp [he]⟩

/-- Whatever is done to a fresh relay, in whatever order, its events are the front of a
message. They are the whole message exactly if a reason to stop or the end of the stream
came before the client went away. No run ends amid finishing, and after the end nothing
is emitted any more, and what the relay reports stays as it is. -/
theorem run_start_wellFormed (model : String) (promptTokens : Nat) (now : Instant)
    (actions : List (Action Chat.Chunk)) :
    let out := run actions (start model promptTokens now)
    (∃ word, IsMessage word ∧ out.2 <+: word) ∧
      (IsMessage out.2 ↔ ∃ reason, ending actions = .stopped reason) ∧
      (.messageStop ∈ out.2 ↔ ∃ reason, ending actions = .stopped reason) ∧
      out.1.phase ≠ .finishing ∧ (out.1.phase = .closed ↔ ending actions ≠ .none) ∧
      (ending actions ≠ .none → ∀ later, run later out.1 = (out.1, [])) := by
  intro out
  obtain ⟨p, hp, hd⟩ : ∃ p, Place.before.read? out.2 = some p ∧
      (p = .done ↔ ∃ reason, ending actions = .stopped reason) :=
    read?_run_start model promptTokens now actions
  have hf : out.1.phase = _ := phase_run_start model promptTokens now actions
  have hc : out.1.phase = .closed ↔ ending actions ≠ .none := by
    rw [hf]
    cases ending actions <;> simp
    split <;> simp
  refine ⟨Place.exists_isMessage_of_read? hp, ?_, ?_, ?_, hc, fun he later => ?_⟩
  · rw [← Place.read?_before_eq_some_done_iff, ← hd, hp, Option.some_inj]
  · rw [Place.mem_messageStop_iff (by simp) hp, hd]
  · rw [hf]
    cases ending actions <;> simp
    split <;> simp
  · exact run_of_closed later (hc.mpr he)

end Switchboard.Relay.Merging
