import Switchboard.Proofs.Merging.Fidelity
import Switchboard.Proofs.Relay.Delivered

/-!
# The usage that is returned

A relay has the usage of a closing delta that it has emitted (`Accounts`). A delivery
returns it. The client has taken that delta, unless it stops before it : a relay has its
usage as soon as it makes the events of a step, and keeps it when the client refuses them
(`reports_start`, `usage?_of_refused`).
-/

namespace Switchboard

open Claude (Event Usage)

/-- An event that reports the output tokens of a usage. -/
def Claude.Event.reports (u : Usage) : Event → Bool
  | .messageDelta _ _ v => v.outputTokens = u.outputTokens
  | _ => false

/-! ## Relays -/

namespace Relay

section Steps

variable {ρ φ : Type} [Relay ρ φ]

/-- A step leaves the usage as it is, or emits an event that reports it. -/
def Accounted (f : Step ρ) : Prop :=
  ∀ r u, Relay.usage? (f r).1 = some u →
    Relay.usage? r = some u ∨ ∃ event ∈ (f r).2, event.reports u = true

/-- Whatever is done to a relay, it has emitted an event that reports its usage. -/
def Accounts (r : ρ) : Prop :=
  ∀ (actions : List (Action φ)) (u : Usage), Relay.usage? (run actions r).1 = some u →
    ∃ event ∈ (run actions r).2, event.reports u = true

variable {f g : Step ρ}

theorem Accounted.of_usage?_eq (h : ∀ r, Relay.usage? (f r).1 = Relay.usage? r) : Accounted f :=
  fun r _ hu => .inl ((h r).symm.trans hu)

theorem Accounted.seq (hf : Accounted f) (hg : Accounted g) : Accounted (f.seq g) := by
  intro r u hu
  rcases hg _ u hu with hu | ⟨event, he, hr⟩
  · refine (hf r u hu).imp_right ?_
    rintro ⟨event, he, hr⟩
    exact ⟨event, List.mem_append_left _ he, hr⟩
  · exact .inr ⟨event, List.mem_append_right _ he, hr⟩

theorem Accounted.emit (events : List Event) : Accounted (Step.emit events : Step ρ) :=
  .of_usage?_eq fun _ => rfl

theorem Accounted.forSome {α : Type} {f : α → Step ρ} (h : ∀ a, Accounted (f a))
    (value : Option α) : Accounted (Step.forSome value f) := by
  cases value with
  | none => exact .emit []
  | some a => exact h a

/-- To do one of two steps, by what the relay is. -/
theorem Accounted.ite {p : ρ → Prop} [DecidablePred p] (hf : Accounted f) (hg : Accounted g) :
    Accounted fun r => if p r then f r else g r := by
  intro r u hu
  by_cases hp : p r
  · simp only [if_pos hp] at hu ⊢
    exact hf r u hu
  · simp only [if_neg hp] at hu ⊢
    exact hg r u hu

theorem Accounted.run (accepts : ∀ fragment : φ, Accounted (Relay.accept fragment : Step ρ))
    (finishes : Accounted (Relay.finish : Step ρ))
    (closes : ∀ r : ρ, Relay.usage? (Relay.close r) = Relay.usage? r)
    (actions : List (Action φ)) : Accounted (run actions : Step ρ) := by
  induction actions with
  | nil => exact .emit []
  | cons a actions ih =>
    refine .seq ?_ ih
    cases a with
    | accept fragment => exact accepts fragment
    | finish => exact finishes
    | close => exact .of_usage?_eq closes

/-- A relay starts without usage. -/
theorem accounts_of_accounted {r : ρ} (fresh : Relay.usage? r = none)
    (h : ∀ actions : List (Action φ), Accounted (run actions : Step ρ)) : Accounts r := by
  intro actions u hu
  refine (h actions r u hu).resolve_left ?_
  rw [fresh]
  exact nofun

end Steps

namespace PerChunk

theorem accounted_stopBlock : Accounted stopBlock :=
  .of_usage?_eq fun r => by
    unfold stopBlock
    cases r.openBlock <;> rfl

theorem accounted_startBlock (kind : BlockKind) (block : Claude.Block) :
    Accounted (startBlock kind block) :=
  accounted_stopBlock.seq (.of_usage?_eq fun _ => rfl)

theorem accounted_ensureBlock (kind : BlockKind) (block : Claude.Block) :
    Accounted (ensureBlock kind block) :=
  .ite (.emit []) (accounted_startBlock kind block)

theorem accounted_emitDelta (delta : Claude.Delta) : Accounted (emitDelta delta) :=
  .of_usage?_eq fun r => by
    unfold emitDelta
    cases r.openBlock <;> rfl

theorem accounted_onReasoning (delta : Chat.Delta) : Accounted (onReasoning delta) := by
  simp only [onReasoning, Step.all_cons, Step.all_nil, Step.seq_emit_nil]
  split
  · exact .emit []
  · exact (accounted_ensureBlock _ _).seq <| .seq (.forSome (fun s => accounted_emitDelta _) _) <|
      .forSome (fun s => (accounted_emitDelta _).seq accounted_stopBlock) _

/-- The usage comes with the delta that closes the message. -/
theorem accounted_closeMessage (reason : Option Claude.StopReason) (sequence : Option String)
    (usage : Usage) : Accounted (closeMessage reason sequence usage) := by
  refine accounted_stopBlock.seq fun r u hu => .inr ⟨_, List.mem_cons_self, ?_⟩
  obtain rfl := Option.some.inj hu
  exact decide_eq_true rfl

theorem accounted_onEvent (event : Event) : Accounted (onEvent event) := by
  unfold onEvent
  split
  · exact (accounted_ensureBlock _ _).seq (accounted_emitDelta _)
  · exact accounted_startBlock _ _
  · exact .ite (accounted_emitDelta _) (.emit [])
  · exact accounted_closeMessage _ _ _
  · exact .emit _

theorem accounted_ensureMessage : Accounted ensureMessage :=
  .ite (.emit []) (.of_usage?_eq fun _ => rfl)

theorem accounts_start (model : String) (promptTokens : Nat) (now : Instant) :
    Accounts (start model promptTokens now) := by
  refine accounts_of_accounted rfl (Accounted.run (fun chunk => ?_) ?_ fun _ => rfl)
  · refine .ite (.emit []) ?_
    simp only [Step.all_cons, Step.all_nil, Step.seq_emit_nil]
    exact accounted_ensureMessage.seq <|
      .seq (.forSome (fun choice : Chat.ChunkChoice => accounted_onReasoning choice.delta) _)
        (.forSome accounted_onEvent _)
  · exact .ite (.emit []) (accounted_ensureMessage.seq (accounted_closeMessage _ _ _))

end PerChunk

theorem Verbatim.accounts_start : Accounts Verbatim.start := by
  refine accounts_of_accounted rfl (Accounted.run (fun event => ?_) (.of_usage?_eq fun _ => rfl)
    fun _ => rfl)
  refine .ite (.emit []) fun r u hu => ?_
  cases event with
  | messageDelta reason sequence v =>
    refine .inr ⟨_, List.mem_cons_self, ?_⟩
    obtain rfl := Option.some.inj hu
    exact decide_eq_true rfl
  | _ => exact .inl hu

/-- A merging relay has usage when the message has ended. -/
theorem Merging.accounts_start [Tokenizer] (model : String) (promptTokens : Nat) (now : Instant) :
    Accounts (start model promptTokens now) := by
  intro actions u hu
  by_cases ho : opens actions = true
  · have hr := atRest_taken model promptTokens now (inputs actions)
    have hn : (taken model promptTokens now (inputs actions)).1.reported = none := by
      rw [taken_fst, (atRest_opened model promptTokens now).feed_frame]
      rfl
    rw [run_start_eq_taken model promptTokens now ho] at hu ⊢
    cases he : ending actions with
    | none | left =>
      rw [he] at hu
      exact absurd (hn.symm.trans hu) nofun
    | stopped reason =>
      rw [he, Ending.step, closeMessage_eq reason hr.toTidy] at hu
      obtain rfl := Option.some.inj hu
      refine ⟨.messageDelta (some reason) none _, List.mem_append_right _ ?_, decide_eq_true rfl⟩
      rw [Ending.step, closeMessage_eq reason hr.toTidy]
      exact List.mem_append_right _ List.mem_cons_self
  · obtain ⟨hr, he⟩ := run_start_of_not_opens model promptTokens now (Bool.eq_false_iff.mpr ho)
    rw [hr] at hu
    rcases he with he | he <;> rw [he] at hu <;> cases hu

end Relay

/-! ## Deliveries -/

namespace Delivery

open Relay (Accounts Merging PerChunk Verbatim run_singleton)

section Reports

variable {ρ φ : Type} [Relay ρ φ] {limit : Nat} {r : ρ} {c : Client}

/-- A delivery does to its relay what its course does, up to some point, and then perhaps
closes it. -/
theorem exists_run_of_loop (limit : Nat) (arrivals : List (Arrival φ)) (c : Client)
    (hr : Relay.isClosed r = false) : ∃ actions : List (Relay.Action φ),
      ((loop limit arrivals r c).relay = (Relay.run actions r).1 ∨
        (loop limit arrivals r c).relay = Relay.close (Relay.run actions r).1) ∧
      (Relay.run actions r).2 <+: (course limit arrivals r).2 := by
  induction arrivals generalizing r c with
  | nil =>
    by_cases hg : c.isGone = true
    · exact ⟨[], .inr (by rw [loop_of_gone _ hg]; rfl), List.nil_prefix⟩
    refine ⟨[.finish], ?_, ?_⟩
    · cases hc : send c (Relay.finish r).2 with
      | mk c' all =>
        rw [loop_nil hg hc]
        cases all with
        | true => exact .inl rfl
        | false => exact .inr rfl
    · rw [course_nil (by simp [hr]), run_singleton]
      exact List.prefix_refl _
  | cons arrival rest ih =>
    by_cases hg : c.isGone = true
    · exact ⟨[], .inr (by rw [loop_of_gone _ hg]; rfl), List.nil_prefix⟩
    cases arrival with
    | failed error =>
      rw [loop_failed hg]
      exact ⟨[], .inl rfl, List.nil_prefix⟩
    | silence =>
      rw [loop_silence hg]
      exact ⟨[], .inl rfl, List.nil_prefix⟩
    | item fragment =>
      have once : (Relay.run [.accept fragment] r : ρ × List Event) = Relay.accept fragment r := by
        rw [run_singleton]
        rfl
      rw [course_item (by simp [hr]), Step.seq_apply]
      cases hc : send c (Relay.accept fragment r).2 with
      | mk c' all =>
        rw [loop_item hg rest hc]
        by_cases hstop : all = true ∧ ¬ Relay.isClosed (Relay.accept fragment r).1 = true
        · obtain ⟨rfl, hopen⟩ := hstop
          obtain ⟨actions, hrelay, hevents⟩ := ih c' (Bool.eq_false_iff.mpr hopen)
          rw [if_pos rfl, if_neg hopen]
          exact ⟨.accept fragment :: actions, hrelay, (List.prefix_append_right_inj _).mpr hevents⟩
        · refine ⟨[.accept fragment], ?_, once ▸ List.prefix_append _ _⟩
          rw [once]
          cases all with
          | false => exact .inr rfl
          | true =>
            rw [if_pos rfl, if_pos (not_not.mp fun h => hstop ⟨rfl, h⟩)]
            exact .inl rfl

/-- To tell a client about a failure is nothing to the relay. -/
theorem relay_conclude (out : Outcome ρ) : (conclude out).relay = out.relay := by
  unfold conclude
  split
  · rfl
  · split <;> rfl

/-- What the client has of the course. -/
theorem Brings.getElem?_taken (h : Brings r) (limit : Nat) (arrivals : List (Arrival φ))
    (capacity leavesAfter : Option Nat) {k : Nat} {event : Event}
    (hk : (course limit arrivals r).2[k]? = some event) :
    (conclude (loop limit arrivals r ⟨[], capacity, leavesAfter⟩)).client.taken[k]? = some event ∨
      ∃ b, (⟨[], capacity, leavesAfter⟩ : Client).bound? = some b ∧ b ≤ k := by
  obtain ⟨hstop, hfree⟩ := h limit arrivals capacity leavesAfter
  have hlt := (List.getElem?_eq_some_iff.mp hk).1
  by_cases hs : (⟨[], capacity, leavesAfter⟩ : Client).stopsBy
      (course limit arrivals r).2.length = true
  · rw [(hstop hs).2.2]
    cases (⟨[], capacity, leavesAfter⟩ : Client).bound? with
    | none =>
      rw [Option.getD_none, List.take_length]
      exact .inl hk
    | some b =>
      rcases Nat.lt_or_ge k b with hb | hb
      · exact .inl ((List.getElem?_take_of_lt hb).trans hk)
      · exact .inr ⟨b, rfl, hb⟩
  · rw [(hfree hs).2.2.2, List.getElem?_append_left hlt]
    exact .inl hk

/-- A usage is that of an event among some, which the client has taken, unless it takes no more
than the events before it. -/
def Reported (events : List Event) (c : Client) (taken : List Event) (u : Usage) : Prop :=
  ∃ k event, events[k]? = some event ∧ event.reports u = true ∧
    (taken[k]? = some event ∨ ∃ b, c.bound? = some b ∧ b ≤ k)

theorem Reported.mono {events more taken : List Event} {u : Usage}
    (h : Reported events c taken u) (first : events <+: more) : Reported more c taken u := by
  obtain ⟨k, event, hk, reports, taken⟩ := h
  obtain ⟨rest, rfl⟩ := first
  have within := (List.getElem?_eq_some_iff.mp hk).1
  exact ⟨k, event, (List.getElem?_append_left within).trans hk, reports, taken⟩

/-- The usage that a delivery returns is that of an event of the course. -/
theorem Brings.reported (h : Brings r) (ha : Accounts r) (hr : Relay.isClosed r = false)
    (closes : ∀ r : ρ, Relay.usage? (Relay.close r) = Relay.usage? r) (limit : Nat)
    (arrivals : List (Arrival φ)) (capacity leavesAfter : Option Nat) {u : Usage}
    (hu : Relay.usage?
      (conclude (loop limit arrivals r ⟨[], capacity, leavesAfter⟩)).relay = some u) :
    Reported (course limit arrivals r).2 ⟨[], capacity, leavesAfter⟩
      (conclude (loop limit arrivals r ⟨[], capacity, leavesAfter⟩)).client.taken u := by
  obtain ⟨actions, hrelay, hevents⟩ :=
    exists_run_of_loop limit arrivals ⟨[], capacity, leavesAfter⟩ hr
  have hu' : Relay.usage? (Relay.run actions r).1 = some u := by
    rw [relay_conclude] at hu
    rcases hrelay with he | he
    · rwa [he] at hu
    · rwa [he, closes] at hu
  obtain ⟨event, hmem, hreports⟩ := ha actions u hu'
  obtain ⟨k, hk⟩ := List.mem_iff_getElem?.mp (hevents.subset hmem)
  exact ⟨k, event, hk, hreports, h.getElem?_taken limit arrivals capacity leavesAfter hk⟩

/-- The usage that a delivery through a relay returns is that of an event of its course,
which the client has taken, unless it takes no more than the events before it. So it is in
whatever order of turns, and on one thread. -/
def Reports (r : ρ) : Prop :=
  ∀ (limit : Nat) (arrivals : List (Arrival φ)) (capacity leavesAfter : Option Nat)
    (u : Usage),
    let c : Client := ⟨[], capacity, leavesAfter⟩
    (∀ turns out, ((Handover.start limit arrivals r c).after turns).result? = some out →
      Relay.usage? out.relay = some u →
        Reported (course limit arrivals r).2 c out.client.taken u) ∧
    let out := run limit arrivals r c
    Relay.usage? out.relay = some u →
      Reported (course limit (inTime limit arrivals) r).2 c out.client.taken u

theorem Brings.reports (h : Brings r) (ha : Accounts r) (hr : Relay.isClosed r = false)
    (closes : ∀ r : ρ, Relay.usage? (Relay.close r) = Relay.usage? r) : Reports r := by
  intro limit arrivals capacity leavesAfter u c
  refine ⟨fun turns out ended hu => ?_,
    h.reported ha hr closes limit (inTime limit arrivals) capacity leavesAfter⟩
  have whole : ((Handover.start limit arrivals r c).after turns).script = arrivals :=
    Handover.script_after _ turns
  have first := Handover.course_heard_isPrefix limit r
    ((Handover.start limit arrivals r c).after turns)
  rw [whole] at first
  obtain ⟨-, rfl⟩ := (Handover.follows_after limit arrivals r c turns).of_result? ended
  exact (h.reported ha hr closes limit _ capacity leavesAfter hu).mono first

end Reports

theorem reports_verbatim : Reports Verbatim.start :=
  (Verbatim.drivable.brings trivial rfl).reports Verbatim.accounts_start rfl fun _ => rfl

theorem reports_perChunk (model : String) (promptTokens : Nat) (now : Instant) :
    Reports (PerChunk.start model promptTokens now) :=
  (PerChunk.drivable.brings trivial rfl).reports (PerChunk.accounts_start model promptTokens now)
    rfl fun _ => rfl

theorem reports_merging [Tokenizer] (model : String) (promptTokens : Nat) (now : Instant) :
    Reports (Merging.start model promptTokens now) :=
  ((Merging.drivable model promptTokens now).brings ⟨[], rfl⟩ rfl).reports
    (Merging.accounts_start model promptTokens now) rfl fun _ => rfl

/-- Whichever relay a delivery goes through, the usage that it returns was reported to the
client, unless the client has stopped by then. -/
theorem reports_start [Tokenizer] (model : String) (promptTokens : Nat) (now : Instant) :
    Reports (Merging.start model promptTokens now) ∧
      Reports (PerChunk.start model promptTokens now) ∧ Reports Verbatim.start :=
  ⟨reports_merging model promptTokens now, reports_perChunk model promptTokens now,
    reports_verbatim⟩

/-- A client that takes one event of an answer is not told how many tokens it has, and yet
the delivery, which ends without a failure, returns that. -/
theorem usage?_of_refused :
    let chunk : Chat.Chunk :=
      ⟨"", "", 0, "", [⟨0, { Chat.Delta.empty with content := some "a" }, some .stop⟩], none⟩
    let out := Delivery.run 60000000000 [.item chunk] (Merging.start "m" 1 ⟨0⟩) ⟨[], some 1, none⟩
    out.failure = none ∧ Relay.usage? out.relay = some (.of 1 1) ∧
      out.client.taken = [.messageStart (.empty "msg_0" "m" (.of 1 1))] ∧
      ∀ event ∈ out.client.taken, event.reports (.of 1 1) = false := by
  decide +kernel

end Delivery

end Switchboard
