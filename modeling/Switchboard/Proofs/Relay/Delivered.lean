import Switchboard.Proofs.Merging.Run
import Switchboard.Proofs.Relay.LastWait
import Switchboard.Relay.PerChunk
import Switchboard.Relay.Verbatim

/-!
# Deliveries through the relays

Each of the relays closes when the stream ends, or when it is told to (`Drivable`), so that a
delivery through it brings the client what it should (`delivers_start`), whatever the order in
which the reader, the loop and the clock take their turns.

What that is depends on the order in one way only. A loop that fails may not have heard of the
whole stream : fragments may be in the queue when it hears of the failure behind them, and the
clock may ring before what has come is looked at. The client then gets the events of a part of
the stream, and the error. If the queue is empty by then, and the clock rings in silence only
(`Punctual`), it gets those of the whole.
-/

namespace Switchboard

open Delivery (Drivable)

namespace Relay

theorem Merging.isClosed_finish [Tokenizer] {r : Merging}
    (h : r.phase = .idle ∨ r.phase = .streaming) :
    Relay.isClosed (Relay.finish r).1 = true := by
  have hp : (Merging.finish r).1.phase = .closed := by
    unfold Merging.finish
    rcases h with h | h <;> rw [h] <;> rfl
  exact decide_eq_true hp

/-- A merging relay is amid finishing only inside a step. -/
theorem Merging.drivable [Tokenizer] (model : String) (promptTokens : Nat) (now : Instant) :
    Drivable fun r => ∃ actions, r = (run actions (start model promptTokens now)).1 where
  keeps chunk r := by
    rintro ⟨actions, rfl⟩
    exact ⟨actions ++ [.accept chunk], by rw [run_append]; rfl⟩
  finishes r := by
    rintro ⟨actions, rfl⟩ hr
    refine Merging.isClosed_finish ?_
    have hn : (run actions (start model promptTokens now)).1.phase ≠ .closed :=
      of_decide_eq_false hr
    rw [phase_run_start] at hn ⊢
    cases he : ending actions with
    | none =>
      by_cases ho : opens actions = true
      · exact .inr (if_pos ho)
      · exact .inl (if_neg ho)
    | left | stopped reason => exact absurd (by rw [he]) hn
  closes _ := rfl

theorem PerChunk.drivable : Drivable fun _ : PerChunk => True where
  keeps _ _ h := h
  finishes r _ hr := by
    show (PerChunk.finish r).1.closed = true
    have hn : ¬ r.closed = true := Bool.eq_false_iff.mp hr
    rw [PerChunk.finish, if_neg hn]
    rfl
  closes _ := rfl

theorem Verbatim.drivable : Drivable fun _ : Verbatim => True where
  keeps _ _ h := h
  finishes _ _ _ := rfl
  closes _ := rfl

end Relay

namespace Delivery

open Handover (start Recurs)

variable {ρ φ : Type} [Relay ρ φ]

/-! ## Punctual clocks -/

namespace Handover

/-- The stream has fallen silent, and the relay was given all that came before. -/
def Silent (h : Handover ρ φ) : Prop := ∃ rest, h.script = h.given.map .item ++ .silence :: rest

/-- The clock rings in silence only. -/
def Punctual (h : Handover ρ φ) (turns : List Party) : Prop :=
  ∀ before later, turns = before ++ .clock :: later → (h.after before).Going →
    (h.after before).Silent

variable {limit : Nat} {arrivals : List (Arrival φ)} {r : ρ} {c : Client} {turns : List Party}
  {e : Error}

/-- Where a loop fails behind the last fragment, and in silence if the time limit has run out, it
has heard of all that leads to the failure. -/
theorem exists_unheard (failed : ((start limit arrivals r c).after turns).stage = .ended (some e))
    (punctual : (start limit arrivals r c).Punctual turns)
    (empty : ((start limit arrivals r c).after turns).queue = []) :
    ∃ unheard, arrivals = ((start limit arrivals r c).after turns).given.map .item ++ unheard ∧
      actions limit unheard = [] ∧ interruption? limit unheard = some e := by
  obtain ⟨-, -, -, -, fails⟩ := ended_after limit arrivals r c turns
  rcases (fails e failed).2 with ⟨whole, -⟩ | ⟨rfl, before, later, rang, going, given⟩
  · rw [empty, List.append_nil] at whole
    exact ⟨_, whole, rfl, rfl⟩
  · obtain ⟨rest, silent⟩ := punctual before later rang going
    rw [script_after, ← given] at silent
    exact ⟨_, silent, rfl, rfl⟩

/-- Then what it has heard of has the course of the stream, and the stream is interrupted. -/
theorem course_heard_eq (failed : ((start limit arrivals r c).after turns).stage = .ended (some e))
    (punctual : (start limit arrivals r c).Punctual turns)
    (empty : ((start limit arrivals r c).after turns).queue = []) :
    course limit ((start limit arrivals r c).after turns).heard r = course limit arrivals r ∧
      interruption? limit arrivals = some e := by
  obtain ⟨unheard, split, idle, cause⟩ := exists_unheard failed punctual empty
  have same : actions limit ((start limit arrivals r c).after turns).heard =
      actions limit arrivals := by
    rw [heard_of_failed failed, actions_append]
    conv_rhs => rw [split, actions_append, idle]
    rfl
  refine ⟨by rw [course, course, same], ?_⟩
  rw [split, interruption?_append, cause]

end Handover

/-! ## Whatever the order of turns -/

/-- What a delivery brings to its client in an order of turns. -/
structure Delivered (limit : Nat) (arrivals : List (Arrival φ)) (r : ρ) (c : Client)
    (turns : List Party) : Prop where
  /-- At any time the client has the first events of the course. -/
  inOrder : ((start limit arrivals r c).after turns).client.taken <+: (course limit arrivals r).2
  /-- If reader and loop get turns again and again from then on, and the clock does in a stream
  that falls silent, the delivery comes to its end. -/
  ends : ∀ order, Recurs .reader order → Recurs .loop order →
    (.silence ∈ arrivals → Recurs .clock order) →
      ∃ n out, (((start limit arrivals r c).after turns).after
        ((List.range n).map order)).result? = some out
  /-- If it ends without a failure, and the client stops it, the client has what it takes, and the
  relay is closed. -/
  stopped : ∀ out, ((start limit arrivals r c).after turns).result? = some out →
    out.failure = none → c.stopsBy (course limit arrivals r).2.length = true →
      Relay.isClosed out.relay = true ∧ out.client.taken = (course limit arrivals r).2.take
        (c.bound?.getD (course limit arrivals r).2.length)
  /-- If the client does not stop it, nothing interrupted the stream before the relay was closed,
  and the client has the events of the whole course. -/
  finished : ∀ out, ((start limit arrivals r c).after turns).result? = some out →
    out.failure = none → ¬ c.stopsBy (course limit arrivals r).2.length = true →
      failure? limit arrivals r = none ∧ out.relay = (course limit arrivals r).1 ∧
        Relay.isClosed out.relay = true ∧ out.client.taken = (course limit arrivals r).2
  /-- If it fails, with a failure of the stream or because the clock rang, the client has not
  stopped it. It has first events of the course, and is told about the failure. -/
  failed : ∀ out e, ((start limit arrivals r c).after turns).result? = some out →
    out.failure = some e → (.failed e ∈ arrivals ∨ e = timeout limit ∧ .clock ∈ turns) ∧
      ∃ events, events <+: (course limit arrivals r).2 ∧ ¬ c.stopsBy events.length = true ∧
        Relay.isClosed out.relay = false ∧
        out.client.taken = events ++ told c events.length (some e)
  /-- If nothing is left in the queue, and the clock rings in silence only, the failure is that of
  the course, and the client has all the events. -/
  complete : ∀ out e, ((start limit arrivals r c).after turns).result? = some out →
    out.failure = some e → (start limit arrivals r c).Punctual turns →
    ((start limit arrivals r c).after turns).queue = [] →
      failure? limit arrivals r = some e ∧ out.relay = (course limit arrivals r).1 ∧
        out.client.taken = (course limit arrivals r).2 ++
          told c (course limit arrivals r).2.length (some e)

/-- A delivery to a client that has nothing yet, of whatever arrives, within whatever time limit
and in whatever order of turns. The outcome on one thread is that of one such order. -/
def Delivers (r : ρ) : Prop :=
  ∀ (limit : Nat) (arrivals : List (Arrival φ)) (capacity leavesAfter : Option Nat),
    let c : Client := ⟨[], capacity, leavesAfter⟩
    (∀ turns, Delivered limit arrivals r c turns) ∧
      ∃ turns, ((start limit arrivals r c).after turns).result? = some (run limit arrivals r c)

section

variable {limit : Nat} {arrivals : List (Arrival φ)} {r : ρ} {c : Client} {turns : List Party}
  {out : Outcome ρ} {I : ρ → Prop}

/-- The failure that a loop ends with is one of the stream, or the clock rang. -/
theorem Handover.cause_of_failed {e : Error}
    (failed : ((start limit arrivals r c).after turns).stage = .ended (some e)) :
    .failed e ∈ arrivals ∨ e = timeout limit ∧ .clock ∈ turns := by
  obtain ⟨-, -, -, -, fails⟩ := ended_after limit arrivals r c turns
  rcases (fails e failed).2 with ⟨whole, -⟩ | ⟨expired, before, later, rang, -⟩
  · exact .inl (whole ▸ List.mem_append_right _ List.mem_cons_self)
  · exact .inr ⟨expired, rang ▸ List.mem_append_right _ List.mem_cons_self⟩

/-- A delivery that does not fail, and that the client does not stop, brings it the whole course of
the stream, which nothing interrupted before the relay was closed. -/
theorem Brings.of_finished (h : Brings r) {capacity leavesAfter : Option Nat}
    (ended :
      ((start limit arrivals r ⟨[], capacity, leavesAfter⟩).after turns).result? = some out)
    (unfailed : out.failure = none)
    (stays : ¬ (⟨[], capacity, leavesAfter⟩ : Client).stopsBy (course limit arrivals r).2.length =
      true) :
    failure? limit arrivals r = none ∧ out.relay = (course limit arrivals r).1 ∧
      Relay.isClosed out.relay = true ∧ out.client.taken = (course limit arrivals r).2 := by
  obtain ⟨stage, rfl⟩ := (Handover.follows_after limit arrivals r _ turns).of_result? ended
  rw [unfailed] at stage
  rw [Handover.heard_of_finished stage, Handover.script_after] at unfailed ⊢
  obtain ⟨hfailure, relay, closes, taken⟩ := (h limit arrivals capacity leavesAfter).2 stays
  have uninterrupted := hfailure.symm.trans unfailed
  rw [uninterrupted, told, List.append_nil] at taken
  exact ⟨uninterrupted, relay, closes uninterrupted, taken⟩

/-- If a delivery on one thread fails, the client has not stopped it. The relay is open, and the
client has the events of the course and is told about the failure. -/
theorem Brings.of_failed (h : Brings r) {capacity leavesAfter : Option Nat} {e : Error}
    (hfail : (conclude (loop limit arrivals r ⟨[], capacity, leavesAfter⟩)).failure = some e) :
    let c : Client := ⟨[], capacity, leavesAfter⟩
    let whole := course limit arrivals r
    let out := conclude (loop limit arrivals r c)
    ¬ c.stopsBy whole.2.length = true ∧ Relay.isClosed whole.1 = false ∧ out.relay = whole.1 ∧
      out.client.taken = whole.2 ++ told c whole.2.length (some e) := by
  obtain ⟨stops, stays⟩ := h limit arrivals capacity leavesAfter
  have unstopped := mt stops fun stopped => Option.some_ne_none e (hfail.symm.trans stopped.1)
  obtain ⟨hfailure, relay, -, taken⟩ := stays unstopped
  have interrupted := hfailure.symm.trans hfail
  rw [interrupted] at taken
  exact ⟨unstopped, isClosed_of_failure? interrupted, relay, taken⟩

theorem Drivable.delivered (h : Drivable I) (hI : I r) (hr : Relay.isClosed r = false)
    (limit : Nat) (arrivals : List (Arrival φ)) (capacity leavesAfter : Option Nat)
    (turns : List Party) : Delivered limit arrivals r ⟨[], capacity, leavesAfter⟩ turns := by
  have whole : ((start limit arrivals r ⟨[], capacity, leavesAfter⟩).after turns).script =
      arrivals := Handover.script_after _ turns
  have follows := Handover.follows_after limit arrivals r ⟨[], capacity, leavesAfter⟩ turns
  have first := Handover.course_heard_isPrefix limit r
    ((start limit arrivals r ⟨[], capacity, leavesAfter⟩).after turns)
  rw [whole] at first
  have brings := h.brings hI hr
  refine ⟨?_, fun order reader loop clock => ?_, fun out ended unfailed stops => ?_,
    fun out ended unfailed stays => ?_, fun out e ended hfail => ?_,
    fun out e ended hfail punctual empty => ?_⟩
  · have roomy : (⟨[], capacity, leavesAfter⟩ : Client).Roomy := fun b _ => Nat.zero_le b
    rw [← follows.client_heard, (loop_spec h _ hI hr roomy).client]
    exact (List.take_prefix _ _).trans first
  · obtain ⟨n, failure, ended⟩ := Handover.ended_of_fair _ reader loop fun silent => clock (by
      rw [← whole, Handover.script]
      exact List.mem_append_right _ (List.mem_append_right _ silent))
    exact ⟨n, _, Handover.result?_of_ended ended⟩
  · obtain ⟨stage, rfl⟩ := follows.of_result? ended
    rw [unfailed] at stage
    rw [Handover.heard_of_finished stage, whole]
    exact ((brings limit arrivals capacity leavesAfter).1 stops).2
  · exact brings.of_finished ended unfailed stays
  · obtain ⟨stage, rfl⟩ := follows.of_result? ended
    obtain ⟨stays, isOpen, relay, taken⟩ := brings.of_failed hfail
    rw [hfail] at stage
    exact ⟨Handover.cause_of_failed stage, _, first, stays, relay ▸ isOpen, taken⟩
  · obtain ⟨stage, rfl⟩ := follows.of_result? ended
    obtain ⟨-, isOpen, relay, taken⟩ := brings.of_failed hfail
    rw [hfail] at stage
    obtain ⟨same, interrupted⟩ := Handover.course_heard_eq stage punctual empty
    rw [same] at isOpen relay taken
    refine ⟨?_, relay, taken⟩
    rw [failure?, isOpen, if_neg Bool.false_ne_true, interrupted]

theorem Drivable.delivers (h : Drivable I) (hI : I r) (hr : Relay.isClosed r = false) :
    Delivers r := fun limit arrivals capacity leavesAfter =>
  ⟨h.delivered hI hr limit arrivals capacity leavesAfter,
    Handover.exists_turns_of_run limit arrivals r ⟨[], capacity, leavesAfter⟩⟩

end

open Relay

end Delivery

end Switchboard
