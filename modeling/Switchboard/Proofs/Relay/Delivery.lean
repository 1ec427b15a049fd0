import Mathlib.Tactic.Common
import Switchboard.Proofs.Relay.Action
import Switchboard.Relay.Delivery

/-!
# What a delivery brings to its client

Left alone, a delivery feeds the relay the fragments that arrive before a failure or a
silence, up to the one that closes it, and tells it the end if nothing interrupts them
(`course`). A client takes the events of this course from the first one on, without a
gap : all of them, or as many as it takes before it refuses one or goes away. In the
latter case the delivery ends quietly with a closed relay. Otherwise it ends as the
course does, and the client is told about a failure (`Drivable.brings`).

The induction is on the arrivals, for a client that has taken some events and can take
more (`loop_spec`).
-/

namespace Switchboard

open Claude (Event)

/-! ## Clients -/

namespace Client

variable {c : Client}

/-- How many events the client takes, if it does not take all. -/
def bound? (c : Client) : Option Nat := Option.merge min c.capacity c.leavesAfter

/-- The client after as many of the events as it takes. -/
def after (c : Client) (events : List Event) : Client :=
  { c with
    taken := (c.taken ++ events).take (c.bound?.getD (c.taken.length + events.length)) }

/-- Whether the client refuses an event or is gone by the time of `n` events. -/
def stopsBy (c : Client) (n : Nat) : Bool := c.capacity.any (· < n) || c.leavesAfter.any (· ≤ n)

/-- The client has not taken more than it takes. -/
def Roomy (c : Client) : Prop := ∀ b, c.bound? = some b → c.taken.length ≤ b

theorem stops_iff : (c.isGone = true ∨ c.isFull = true) ↔
    ∃ b, c.bound? = some b ∧ b ≤ c.taken.length := by
  unfold isGone isFull bound?
  cases c.capacity <;> cases c.leavesAfter <;> simp [Option.merge]
  omega

/-- A client that does not take `n` events stops by then. -/
theorem stopsBy_of_bound_lt {b n : Nat} (hb : c.bound? = some b) (h : b < n) :
    c.stopsBy n = true := by
  unfold bound? at hb
  unfold stopsBy
  cases hk : c.capacity <;> cases hn : c.leavesAfter <;> simp_all [Option.merge]
  · omega
  · omega

theorem le_bound_of_not_stopsBy {b n : Nat} (hb : c.bound? = some b) (h : ¬ c.stopsBy n = true) :
    n ≤ b := by
  by_contra hl
  exact h (stopsBy_of_bound_lt hb (Nat.lt_of_not_le hl))

theorem stopsBy_of_isGone {n : Nat} (h : c.isGone = true) (hn : c.taken.length ≤ n) :
    c.stopsBy n = true := by
  obtain ⟨m, hm, hl⟩ := (Option.any_eq_true _ _).mp h
  rw [stopsBy, hm, Option.any_some, decide_eq_true (Nat.le_trans (of_decide_eq_true hl) hn),
    Bool.or_true]

/-- Only a client that is gone has stopped before it refuses an event. -/
theorem isGone_of_stopsBy (h : c.Roomy) (hs : c.stopsBy c.taken.length = true) :
    c.isGone = true := by
  unfold Roomy bound? at h
  unfold stopsBy at hs
  unfold isGone
  cases hk : c.capacity <;> cases hn : c.leavesAfter <;> simp_all [Option.merge]
  · omega
  · omega

theorem after_nil (h : c.Roomy) : c.after [] = c := by
  have ht : c.taken.take (c.bound?.getD (c.taken.length + 0)) = c.taken := by
    refine List.take_of_length_le ?_
    cases hb : c.bound? with
    | none => exact Nat.le_refl _
    | some b => exact h b hb
  unfold after
  rw [List.append_nil, List.length_nil, ht]

/-- A client that refuses or is gone takes nothing. -/
theorem after_of_stops (h : c.Roomy) (hs : c.isGone = true ∨ c.isFull = true)
    (events : List Event) : c.after events = c := by
  obtain ⟨b, hb, hl⟩ := stops_iff.mp hs
  have ht : (c.taken ++ events).take b = c.taken := by
    rw [Nat.le_antisymm hl (h b hb), List.take_left]
  rw [after, hb, Option.getD_some, ht]

/-- The client takes all the events. -/
theorem after_of_le {events : List Event}
    (h : ∀ b, c.bound? = some b → c.taken.length + events.length ≤ b) :
    c.after events = { c with taken := c.taken ++ events } := by
  have ht : (c.taken ++ events).take (c.bound?.getD (c.taken.length + events.length)) =
      c.taken ++ events := by
    refine List.take_of_length_le ?_
    rw [List.length_append]
    cases hb : c.bound? with
    | none => exact Nat.le_refl _
    | some b => exact h b hb
  rw [after, ht]

/-- The client takes none of the events that come after those it did not take. -/
theorem after_append_of_lt {b : Nat} {events : List Event} (more : List Event)
    (hb : c.bound? = some b) (h : b < c.taken.length + events.length) :
    c.after (events ++ more) = c.after events := by
  unfold after
  rw [hb, Option.getD_some, Option.getD_some, ← List.append_assoc,
    List.take_append_of_le_length (by rw [List.length_append]; exact Nat.le_of_lt h)]

theorem after_append (events more : List Event) :
    ({ c with taken := c.taken ++ events } : Client).after more = c.after (events ++ more) := by
  have hb : ({ c with taken := c.taken ++ events } : Client).bound? = c.bound? := rfl
  unfold after
  rw [hb]
  simp only [List.append_assoc, List.length_append, Nat.add_assoc]

end Client

namespace Delivery

variable {c : Client}

theorem send_of_stops {events : List Event} {event : Event}
    (h : c.isGone = true ∨ c.isFull = true) : send c (event :: events) = (c, false) := by
  rw [send]
  by_cases hg : c.isGone = true
  · rw [if_pos hg]
  · rw [if_neg hg, Client.take?, if_pos (h.resolve_left hg)]

theorem send_of_room {events : List Event} {event : Event}
    (h : ¬ (c.isGone = true ∨ c.isFull = true)) :
    send c (event :: events) = send { c with taken := c.taken ++ [event] } events := by
  rw [send, if_neg fun hg => h (.inl hg), Client.take?, if_neg fun hf => h (.inr hf)]

/-- The client takes all the events that it is handed, or as many as it takes. -/
theorem send_eq (events : List Event) (h : c.Roomy) : send c events =
    (c.after events, c.bound?.all (c.taken.length + events.length ≤ ·)) := by
  induction events generalizing c with
  | nil =>
    rw [c.after_nil h]
    cases hb : c.bound? with
    | none => simp [send]
    | some b => simp [send, h b hb]
  | cons event events ih =>
    by_cases hs : c.isGone = true ∨ c.isFull = true
    · obtain ⟨b, hb, hl⟩ := Client.stops_iff.mp hs
      have hf : ¬ c.taken.length + (events.length + 1) ≤ b := by omega
      rw [send_of_stops hs, Client.after_of_stops h hs, hb, List.length_cons, Option.all_some,
        decide_eq_false hf]
    · have hr : ({ c with taken := c.taken ++ [event] } : Client).Roomy := by
        intro b hb
        by_contra hl
        rw [List.length_append, List.length_singleton] at hl
        exact hs (Client.stops_iff.mpr ⟨b, hb, by omega⟩)
      have hb : ({ c with taken := c.taken ++ [event] } : Client).bound? = c.bound? := rfl
      rw [send_of_room hs, ih hr, Client.after_append, hb]
      simp only [List.length_append, List.length_cons, List.length_nil, List.singleton_append,
        Nat.add_assoc, Nat.add_comm 1, Nat.zero_add]

/-- The client takes all the events and can take more, or it stops amid them. -/
theorem send_cases (events : List Event) (h : c.Roomy) :
    (send c events = (c.after events, true) ∧
        c.after events = { c with taken := c.taken ++ events } ∧
        ({ c with taken := c.taken ++ events } : Client).Roomy) ∨
      ∃ b, c.bound? = some b ∧ b < c.taken.length + events.length ∧
        send c events = (c.after events, false) := by
  rw [send_eq events h]
  by_cases ha : ∀ b, c.bound? = some b → c.taken.length + events.length ≤ b
  · refine .inl ⟨?_, Client.after_of_le ha, fun b hb => ?_⟩
    · cases hb : c.bound? with
      | none => rfl
      | some b => rw [Option.all_some, decide_eq_true (ha b hb)]
    · rw [List.length_append]
      exact ha b hb
  · simp only [not_forall, Nat.not_le] at ha
    obtain ⟨b, hb, hl⟩ := ha
    exact .inr ⟨b, hb, hl, by rw [hb, Option.all_some, decide_eq_false (by omega)]⟩

/-! ## The course of a stream -/

section Course

variable {ρ φ : Type} [Relay ρ φ]

/-- The fragments before the first failure or silence. -/
def fragments : List (Arrival φ) → List φ
  | .item fragment :: rest => fragment :: fragments rest
  | _ => []

/-- The first failure or silence, as an error. -/
def interruption? (limit : Nat) : List (Arrival φ) → Option Error
  | [] => none
  | .item _ :: rest => interruption? limit rest
  | .failed error :: _ => some error
  | .silence :: _ => some (timeout limit)

/-- What there is to do to a relay : to hand it the fragments, and to tell it the end if
nothing interrupts them. -/
def actions (limit : Nat) (arrivals : List (Arrival φ)) : List (Relay.Action φ) :=
  (fragments arrivals).map .accept ++
    if (interruption? limit arrivals).isSome then [] else [.finish]

/-- Do one action after another, until the relay is closed. -/
def untilClosed : List (Relay.Action φ) → Step ρ
  | [] => Step.emit []
  | a :: rest => fun r =>
    if Relay.isClosed r then (r, []) else Step.seq a.step (untilClosed rest) r

/-- The relay and all its events, if nobody stops the delivery. -/
def course (limit : Nat) (arrivals : List (Arrival φ)) : Step ρ :=
  untilClosed (actions limit arrivals)

/-- The failure that the course of a stream ends with : what interrupted it, unless the relay
was closed by then. -/
def failure? (limit : Nat) (arrivals : List (Arrival φ)) (r : ρ) : Option Error :=
  if Relay.isClosed (course limit arrivals r).1 then none else interruption? limit arrivals

theorem untilClosed_of_closed {r : ρ} (h : Relay.isClosed r = true)
    (actions : List (Relay.Action φ)) : untilClosed actions r = (r, []) := by
  cases actions with
  | nil => rfl
  | cons a rest => exact if_pos h

theorem untilClosed_append (first second : List (Relay.Action φ)) :
    (untilClosed (first ++ second) : Step ρ) = (untilClosed first).seq (untilClosed second) := by
  induction first with
  | nil =>
    funext r
    rw [List.nil_append, untilClosed, Step.seq_apply]
    rfl
  | cons a first ih =>
    funext r
    by_cases hr : Relay.isClosed r = true
    · rw [untilClosed_of_closed hr, Step.seq_apply, untilClosed_of_closed hr,
        untilClosed_of_closed hr, List.nil_append]
    · have hl : untilClosed (a :: (first ++ second)) r =
          Step.seq a.step (untilClosed (first ++ second)) r := if_neg hr
      have hf : untilClosed (a :: first) r = Step.seq a.step (untilClosed first) r := if_neg hr
      rw [List.cons_append, hl, ih, Step.seq_apply, Step.seq_apply, Step.seq_apply, hf,
        Step.seq_apply, List.append_assoc]

/-- Fragments in front of the others are the first thing to do. -/
theorem actions_append (limit : Nat) (as : List φ) (rest : List (Arrival φ)) :
    actions limit (as.map .item ++ rest) = as.map .accept ++ actions limit rest := by
  induction as with
  | nil => rfl
  | cons a as ih => exact congrArg (Relay.Action.accept a :: ·) ih

theorem interruption?_append (limit : Nat) (as : List φ) (rest : List (Arrival φ)) :
    interruption? limit (as.map .item ++ rest) = interruption? limit rest := by
  induction as with
  | nil => rfl
  | cons a as ih => exact ih

/-- A stream that breaks off early has the first events of the whole. -/
theorem course_isPrefix (limit : Nat) (as : List φ) {broken : List (Arrival φ)}
    (h : actions limit broken = []) (rest : List (Arrival φ)) (r : ρ) :
    (course limit (as.map .item ++ broken) r).2 <+: (course limit (as.map .item ++ rest) r).2 := by
  rw [course, course, actions_append, actions_append, h, List.append_nil, untilClosed_append,
    Step.seq_apply]
  exact List.prefix_append _ _

theorem course_item {r : ρ} (h : ¬ Relay.isClosed r = true) (limit : Nat) (fragment : φ)
    (rest : List (Arrival φ)) :
    course limit (.item fragment :: rest) r =
      Step.seq (Relay.accept fragment) (course limit rest) r :=
  if_neg h

theorem course_nil {r : ρ} (h : ¬ Relay.isClosed r = true) (limit : Nat) :
    course limit ([] : List (Arrival φ)) r = Relay.finish r := by
  have hs : course limit ([] : List (Arrival φ)) r =
      Step.seq Relay.finish (Step.emit []) r := if_neg h
  rw [hs, Step.seq_emit_nil]

/-- What a delivery relies on, for relays in the states that satisfy an invariant. -/
structure Drivable (I : ρ → Prop) : Prop where
  keeps : ∀ (fragment : φ) (r : ρ), I r → I (Relay.accept fragment r).1
  finishes : ∀ r : ρ, I r → Relay.isClosed r = false → Relay.isClosed (Relay.finish r).1 = true
  closes : ∀ r : ρ, Relay.isClosed (Relay.close r) = true

/-- How a delivery ends whose course has the given events and leads to the given relay and
failure : the client takes what it takes, and unless it stops, all ends as in the course. -/
structure Ends (c : Client) (r : ρ) (events : List Event) (failure : Option Error)
    (out : Outcome ρ) : Prop where
  client : out.client = c.after events
  stopped : c.stopsBy (c.taken.length + events.length) = true →
    out.failure = none ∧ Relay.isClosed out.relay = true
  free : ¬ c.stopsBy (c.taken.length + events.length) = true →
    out.relay = r ∧ out.failure = failure

variable {limit : Nat} {r r' : ρ} {events more : List Event} {failure : Option Error}

/-! ## The loop -/

theorem loop_of_gone (arrivals : List (Arrival φ)) (h : c.isGone = true) :
    loop limit arrivals r c = ⟨Relay.close r, c, none⟩ := by
  rw [loop.eq_def]
  exact if_pos h

theorem loop_nil (hg : ¬ c.isGone = true) {c' : Client} {all : Bool}
    (hs : send c (Relay.finish r).2 = (c', all)) : loop limit ([] : List (Arrival φ)) r c =
      ⟨if all then (Relay.finish r).1 else Relay.close (Relay.finish r).1, c', none⟩ := by
  rw [loop.eq_def]
  refine (if_neg hg).trans ?_
  simp only [hs]

theorem loop_item (hg : ¬ c.isGone = true) {fragment : φ} {c' : Client} {all : Bool}
    (rest : List (Arrival φ)) (hs : send c (Relay.accept fragment r).2 = (c', all)) :
    loop limit (.item fragment :: rest) r c =
      if all then
        if Relay.isClosed (Relay.accept fragment r).1 then ⟨(Relay.accept fragment r).1, c', none⟩
        else loop limit rest (Relay.accept fragment r).1 c'
      else ⟨Relay.close (Relay.accept fragment r).1, c', none⟩ := by
  rw [loop.eq_def]
  refine (if_neg hg).trans ?_
  simp only [hs]
  cases all <;> rfl

theorem loop_failed (hg : ¬ c.isGone = true) (error : Error) (rest : List (Arrival φ)) :
    loop limit (.failed error :: rest) r c = ⟨r, c, some error⟩ := by
  rw [loop.eq_def]
  exact if_neg hg

theorem loop_silence (hg : ¬ c.isGone = true) (rest : List (Arrival φ)) :
    loop limit (.silence :: rest) r c = ⟨r, c, some (timeout limit)⟩ := by
  rw [loop.eq_def]
  exact if_neg hg

/-- A delivery that a client stops amid the events of a step. -/
theorem Ends.of_cut {b : Nat} (hb : c.bound? = some b) (h : b < c.taken.length + events.length)
    (hr : Relay.isClosed r' = true) (more : List Event) :
    Ends c r (events ++ more) failure ⟨r', c.after events, none⟩ where
  client := (Client.after_append_of_lt more hb h).symm
  stopped _ := ⟨rfl, hr⟩
  free hs := by
    have hn := Client.le_bound_of_not_stopsBy hb hs
    rw [List.length_append] at hn
    omega

/-- A delivery whose relay is closed by the last events that the client takes. -/
theorem Ends.of_closed (hr : Relay.isClosed r = true) :
    Ends c r events none ⟨r, c.after events, none⟩ where
  client := rfl
  stopped _ := ⟨rfl, hr⟩
  free _ := ⟨rfl, rfl⟩

/-- A delivery that an interruption ends. -/
theorem Ends.of_failure (hc : c.Roomy) (hg : ¬ c.isGone = true) (error : Error) :
    Ends c r [] (some error) ⟨r, c, some error⟩ where
  client := (Client.after_nil hc).symm
  stopped hs := absurd (Client.isGone_of_stopsBy hc hs) hg
  free _ := ⟨rfl, rfl⟩

/-- A delivery to a client that is gone. -/
theorem Ends.of_gone (hc : c.Roomy) (hg : c.isGone = true) (hr : Relay.isClosed r' = true) :
    Ends c r events failure ⟨r', c, none⟩ where
  client := (Client.after_of_stops hc (.inl hg) events).symm
  stopped _ := ⟨rfl, hr⟩
  free hs := absurd (Client.stopsBy_of_isGone hg (Nat.le_add_right _ _)) hs

/-- A delivery that goes on after the events of a step. -/
theorem Ends.append {out : Outcome ρ}
    (h : Ends { c with taken := c.taken ++ events } r more failure out) :
    Ends c r (events ++ more) failure out where
  client := h.client.trans (Client.after_append events more)
  stopped hs := h.stopped (by simpa [Client.stopsBy, Nat.add_assoc] using hs)
  free hs := h.free (by simpa [Client.stopsBy, Nat.add_assoc] using hs)

variable {I : ρ → Prop}

/-- The loop follows the course of the stream as far as the client lets it. -/
theorem loop_spec (h : Drivable I) (arrivals : List (Arrival φ)) (hI : I r)
    (hr : Relay.isClosed r = false) (hc : c.Roomy) :
    Ends c (course limit arrivals r).1 (course limit arrivals r).2 (failure? limit arrivals r)
      (loop limit arrivals r c) := by
  induction arrivals generalizing r c with
  | nil =>
    by_cases hg : c.isGone = true
    · rw [loop_of_gone [] hg]
      exact .of_gone hc hg (h.closes r)
    have hf := h.finishes r hI hr
    rw [failure?, course_nil (by simp [hr]), if_pos hf]
    rcases send_cases (Relay.finish r).2 hc with ⟨hs, -, -⟩ | ⟨b, hb, hlt, hs⟩
    · rw [loop_nil hg hs]
      exact .of_closed hf
    · rw [loop_nil hg hs, if_neg (by simp)]
      have hcut : Ends c (Relay.finish r).1 ((Relay.finish r).2 ++ []) none _ :=
        .of_cut hb hlt (h.closes (Relay.finish r).1) []
      rwa [List.append_nil] at hcut
  | cons arrival rest ih =>
    by_cases hg : c.isGone = true
    · rw [loop_of_gone _ hg]
      exact .of_gone hc hg (h.closes r)
    have hn : ¬ Relay.isClosed r = true := by simp [hr]
    cases arrival with
    | failed error =>
      have hf : failure? limit (.failed error :: rest) r = some error := if_neg hn
      rw [loop_failed hg, hf]
      exact .of_failure hc hg error
    | silence =>
      have hf : failure? limit (.silence :: rest) r = some (timeout limit) := if_neg hn
      rw [loop_silence hg, hf]
      exact .of_failure hc hg (timeout limit)
    | item fragment =>
      have hf : failure? limit (.item fragment :: rest) r =
          failure? limit rest (Relay.accept fragment r).1 := by
        rw [failure?, course_item hn]
        rfl
      rw [hf, course_item hn, Step.seq_apply]
      rcases send_cases (Relay.accept fragment r).2 hc with ⟨hs, ha, hroom⟩ | ⟨b, hb, hlt, hs⟩
      · rw [loop_item hg rest hs, if_pos rfl]
        by_cases hclosed : Relay.isClosed (Relay.accept fragment r).1 = true
        · rw [if_pos hclosed, failure?, course, untilClosed_of_closed hclosed, if_pos hclosed,
            List.append_nil]
          exact .of_closed hclosed
        · rw [if_neg hclosed, ha]
          exact (ih (h.keeps fragment r hI) (Bool.eq_false_iff.mpr hclosed) hroom).append
      · rw [loop_item hg rest hs, if_neg (by simp)]
        exact .of_cut hb hlt (h.closes _) _

/-- A failure comes while the relay is open. -/
theorem isClosed_of_failure? {arrivals : List (Arrival φ)} {error : Error}
    (failed : failure? limit arrivals r = some error) :
    Relay.isClosed (course limit arrivals r).1 = false := by
  by_contra closed
  rw [failure?, if_pos (eq_true_of_ne_false closed)] at failed
  cases failed

/-- A course without a failure closes the relay. -/
theorem isClosed_of_failure?_eq_none (h : Drivable I) (arrivals : List (Arrival φ)) (hI : I r)
    (hf : failure? limit arrivals r = none) :
    Relay.isClosed (course limit arrivals r).1 = true := by
  by_contra hn
  rw [failure?, if_neg hn] at hf
  by_cases hr : Relay.isClosed r = true
  · rw [course, untilClosed_of_closed hr] at hn
    exact hn hr
  induction arrivals generalizing r with
  | nil =>
    rw [course_nil hr] at hn
    exact hn (h.finishes r hI (Bool.eq_false_iff.mpr hr))
  | cons arrival rest ih =>
    cases arrival with
    | failed error | silence => cases hf
    | item fragment =>
      rw [course_item hr, Step.seq_apply] at hn
      by_cases hr' : Relay.isClosed (Relay.accept fragment r).1 = true
      · rw [course, untilClosed_of_closed hr'] at hn
        exact hn hr'
      · exact ih (h.keeps fragment r hI) hf hn hr'

/-! ## Whole deliveries -/

/-- What a client is told about a failure that comes after `n` events. -/
def told (c : Client) (n : Nat) : Option Error → List Event
  | some error => if c.capacity = some n then [] else [errorEvent error]
  | none => []

/-- The delivery of whatever arrives to whatever client brings it the events of the course
from the first one on. If the client refuses one of them or goes away by the last one,
nothing more is sent, and the delivery ends quietly with a closed relay. Otherwise it ends
as the course does : with a closed relay, or with a failure that the client is told about,
if it takes one more event. -/
def Brings (r : ρ) : Prop :=
  ∀ (limit : Nat) (arrivals : List (Arrival φ)) (capacity leavesAfter : Option Nat),
    let c : Client := ⟨[], capacity, leavesAfter⟩
    let whole := course limit arrivals r
    let failure := failure? limit arrivals r
    let out := conclude (loop limit arrivals r c)
    (c.stopsBy whole.2.length = true → out.failure = none ∧ Relay.isClosed out.relay = true ∧
      out.client.taken = whole.2.take (c.bound?.getD whole.2.length)) ∧
    (¬ c.stopsBy whole.2.length = true → out.failure = failure ∧ out.relay = whole.1 ∧
      (failure = none → Relay.isClosed out.relay = true) ∧
      out.client.taken = whole.2 ++ told c whole.2.length failure)

theorem taken_take? {events : List Event} {capacity leavesAfter : Option Nat} (error : Error)
    (hs : ¬ (⟨[], capacity, leavesAfter⟩ : Client).stopsBy events.length = true) :
    (((⟨events, capacity, leavesAfter⟩ : Client).take? (errorEvent error)).getD
      ⟨events, capacity, leavesAfter⟩).taken =
        events ++ told ⟨[], capacity, leavesAfter⟩ events.length (some error) := by
  simp only [Client.stopsBy, Bool.or_eq_true, not_or] at hs
  unfold Client.take? Client.isFull told
  cases capacity with
  | none => simp
  | some k =>
    have hk : ¬ k < events.length := by simpa using hs.1
    by_cases he : k = events.length
    · simp [he]
    · have hl : ¬ k ≤ events.length := by omega
      simp [he, hl]

theorem conclude_of_none {out : Outcome ρ} (h : out.failure = none) : conclude out = out := by
  simp only [conclude, h]

/-- A client that took all the events is told about the failure unless it is full. -/
theorem conclude_of_some {out : Outcome ρ} {error : Error} (h : out.failure = some error)
    (hr : ¬ Relay.isClosed out.relay = true) (hg : ¬ out.client.isGone = true) :
    conclude out =
      { out with client := (out.client.take? (errorEvent error)).getD out.client } := by
  simp only [conclude, h]
  rw [if_neg]
  simp only [Bool.or_eq_true, not_or]
  exact ⟨hr, hg⟩

@[simp] theorem failure_conclude (out : Outcome ρ) : (conclude out).failure = out.failure := by
  unfold conclude
  split
  case h_1 => rfl
  case h_2 =>
    split
    case isTrue => rfl
    case isFalse => rfl

theorem Drivable.brings (h : Drivable I) (hI : I r) (hr : Relay.isClosed r = false) :
    Brings r := by
  intro limit arrivals capacity leavesAfter c whole failure out
  have hc : c.Roomy := fun b _ => Nat.zero_le b
  have he : Ends c whole.1 whole.2 failure (loop limit arrivals r c) :=
    loop_spec h arrivals hI hr hc
  have hn : c.taken.length + whole.2.length = whole.2.length := Nat.zero_add _
  refine ⟨fun hs => ?_, fun hs => ?_⟩
  · obtain ⟨hf, hclosed⟩ := he.stopped (hn.symm ▸ hs)
    have ho : out = loop limit arrivals r c := conclude_of_none hf
    rw [ho, he.client, Client.after, hn]
    exact ⟨hf, hclosed, rfl⟩
  · obtain ⟨hrelay, hf⟩ := he.free (hn.symm ▸ hs)
    have hclient : (loop limit arrivals r c).client = ⟨whole.2, capacity, leavesAfter⟩ :=
      he.client.trans <| Client.after_of_le fun b hb =>
        hn.symm ▸ Client.le_bound_of_not_stopsBy hb hs
    cases hfail : failure with
    | none =>
      rw [hfail] at hf
      have ho : out = loop limit arrivals r c := conclude_of_none hf
      have hclosed := isClosed_of_failure?_eq_none h arrivals hI hfail
      rw [ho, hclient, told, List.append_nil]
      exact ⟨hf, hrelay, fun _ => hrelay.symm ▸ hclosed, rfl⟩
    | some error =>
      rw [hfail] at hf
      have hopen : ¬ Relay.isClosed (loop limit arrivals r c).relay = true := by
        intro hclosed
        rw [hrelay] at hclosed
        have : failure = none := if_pos hclosed
        rw [hfail] at this
        cases this
      have hhere : ¬ (loop limit arrivals r c).client.isGone = true := fun hg =>
        hs (Client.stopsBy_of_isGone (c := ⟨whole.2, capacity, leavesAfter⟩) (hclient ▸ hg)
          (Nat.le_refl _))
      have ho : out = _ := conclude_of_some hf hopen hhere
      rw [ho]
      refine ⟨hf, hrelay, nofun, ?_⟩
      show (((loop limit arrivals r c).client.take? (errorEvent error)).getD
        (loop limit arrivals r c).client).taken = _
      rw [hclient, taken_take? error hs]

end Course

end Delivery

end Switchboard
