import Switchboard.Backend.Call
import Switchboard.Proofs.Json.Sorted
import Switchboard.Proofs.Merging.WellFormed
import Switchboard.Proofs.PerChunk.WellFormed
import Switchboard.Proofs.Relay.Delivered

/-!
# Errors of the connection, and errors amid a stream

A delivery can only fail while the relay is open. Then the client gets an error for the last
event, and neither a closing delta nor a stop. Otherwise it gets a whole message, and the
connection neither failed nor fell silent before that.

A provider may also report an error in a payload of the stream. For the decoder such a report is
a chunk without choices, or no chunk at all (`isBare_of_isReport`). A relay takes a bare chunk
only for a sign that the message has begun, and whatever comes next would be that, too
(`Absorbs`). So a stream that is not interrupted ends with and without the reports in it in the
same way (`passes_start`).
-/

namespace Switchboard

open Claude (Event Place IsMessage)

/-! ## Reports and bare chunks -/

/-- A payload that is a report of an error, without choices and usage. -/
def isReport (data : String) : Bool :=
  ((Json.parseSorted? data).bind ErrorForm.chat.report?).isSome &&
    (Json.parse? data).all fun v => (v.get? "choices").isNone && (v.get? "usage").isNone

/-- A chunk that brings nothing. -/
def Chat.Chunk.isBare (c : Chunk) : Bool := c.choices.isEmpty && c.usage.isNone

/-- What is reported as an error is an object. -/
theorem exists_members_of_report? {v : Json} {form : ErrorForm}
    (h : (form.report? v.sorted).isSome) : ∃ members, v = .object members := by
  cases v with
  | object members => exact ⟨members, rfl⟩
  | _ => cases h

/-- A report is decoded to a bare chunk, if to any. -/
theorem isBare_of_isReport {data : String} (report : isReport data) {c : Chat.Chunk}
    (decoded : (Json.parse? data).bind Chat.Chunk.ofJson? = some c) : c.isBare := by
  obtain ⟨v, hv, hc⟩ := Option.bind_eq_some_iff.mp decoded
  rw [isReport, Json.parseSorted?, hv] at report
  simp only [Option.map_some, Option.bind_some, Option.all_some, Bool.and_eq_true,
    Option.isNone_iff_eq_none] at report
  obtain ⟨members, rfl⟩ := exists_members_of_report? report.1
  obtain ⟨r, hr, hc⟩ := Option.bind_eq_some_iff.mp hc
  have absent : ∀ name, (Json.object members).get? name = none → r.get? name = none := by
    intro name none
    rw [Json.record?] at hr
    split_ifs at hr
    obtain rfl := Option.some.inj hr
    have known := lookup_filter Chat.Response.fieldNames.contains members name
    rw [Json.Record.get?, known]
    exact (congrArg (ite _ · _) none).trans (ite_self _)
  have choices : r.orDefault "choices" [] (Json.listOf? Chat.ChunkChoice.ofJson?) = some [] := by
    rw [Json.Record.orDefault, absent _ report.2.1]
  have usage : r.optional "usage" Chat.Usage.ofJson? = some none := by
    rw [Json.Record.optional, absent _ report.2.2]
  simp only [choices, usage, Option.bind_eq_bind, Option.bind_some, Option.pure_def] at hc
  obtain ⟨id, -, hc⟩ := Option.bind_eq_some_iff.mp hc
  obtain ⟨object, -, hc⟩ := Option.bind_eq_some_iff.mp hc
  obtain ⟨created, -, hc⟩ := Option.bind_eq_some_iff.mp hc
  obtain ⟨model, -, hc⟩ := Option.bind_eq_some_iff.mp hc
  obtain rfl := Option.some.inj hc
  rfl

theorem isReport_closingMark : isReport closingMark = false := by decide +kernel

/-- Payloads that nothing interrupts are decoded to chunks, and the reports among them make a
difference only in bare ones. -/
theorem exists_chunks (payloads : List String) : ∃ chunks others : List Chat.Chunk,
    decodePayloads Chat.Chunk.ofJson? (payloads.map .item) = chunks.map .item ∧
      decodePayloads Chat.Chunk.ofJson? ((payloads.filter (!isReport ·)).map .item) =
        others.map .item ∧
      chunks.filter (!·.isBare) = others.filter (!·.isBare) := by
  induction payloads with
  | nil => exact ⟨[], [], rfl, rfl, rfl⟩
  | cons data rest ih =>
    by_cases mark : data = closingMark
    · refine ⟨[], [], ?_, ?_, rfl⟩
      · rw [List.map_cons, decodePayloads, if_pos mark]
        rfl
      · rw [List.filter_cons, mark, isReport_closingMark]
        rfl
    obtain ⟨chunks, others, hchunks, hothers, same⟩ := ih
    rw [List.filter_cons, List.map_cons, decodePayloads, if_neg mark]
    cases decoded : (Json.parse? data).bind Chat.Chunk.ofJson? with
    | none =>
      refine ⟨chunks, others, hchunks, ?_, same⟩
      split
      · rw [List.map_cons, decodePayloads, if_neg mark, decoded]
        exact hothers
      · exact hothers
    | some c =>
      by_cases report : isReport data
      · refine ⟨c :: chunks, others, congrArg _ hchunks, ?_, ?_⟩
        · rw [report]
          exact hothers
        · rw [List.filter_cons, isBare_of_isReport report decoded]
          exact same
      · rw [Bool.not_eq_true] at report
        refine ⟨c :: chunks, c :: others, congrArg _ hchunks, ?_, ?_⟩
        · rw [report, Bool.not_false, if_pos rfl, List.map_cons, decodePayloads, if_neg mark,
            decoded]
          exact congrArg _ hothers
        · rw [List.filter_cons, List.filter_cons, same]

/-! ## Relays -/

namespace Relay

variable {ρ : Type} [Relay ρ Chat.Chunk]

/-- A bare chunk makes no difference if something else comes behind it. -/
def Absorbs (ρ : Type) [Relay ρ Chat.Chunk] : Prop :=
  ∀ c : Chat.Chunk, c.isBare → ∀ a : Action Chat.Chunk, a ≠ .close →
    (Relay.accept c).seq a.step = (a.step : Step ρ)

/-- Before the end of a stream, bare chunks make no difference. -/
theorem Absorbs.run_filter (h : Absorbs ρ) (chunks : List Chat.Chunk) :
    (run (chunks.map .accept ++ [.finish]) : Step ρ) =
      run ((chunks.filter (!·.isBare)).map .accept ++ [.finish]) := by
  induction chunks with
  | nil => rfl
  | cons c rest ih =>
    rw [List.map_cons, List.cons_append, run_cons, List.filter_cons]
    by_cases bare : c.isBare
    · -- Behind the bare chunk there is another one, or the end of the stream.
      obtain ⟨a, actions, next, ha⟩ : ∃ a actions,
          rest.map Action.accept ++ [.finish] = a :: actions ∧ a ≠ Action.close := by
        cases rest with
        | nil => exact ⟨.finish, [], rfl, nofun⟩
        | cons d rest => exact ⟨.accept d, _, rfl, nofun⟩
      have passed : Step.seq (Relay.accept c) (run (a :: actions)) =
          (run (a :: actions) : Step ρ) := by
        rw [run_cons, ← Step.seq_assoc, h c bare a ha]
      rw [bare, Bool.not_true, if_neg Bool.false_ne_true, ← ih, next]
      exact passed
    · rw [Bool.not_eq_true] at bare
      rw [bare, ih]
      rfl

/-- Where a bare chunk does what everything else does first, it is absorbed. -/
theorem Absorbs.of_first {first : Step ρ}
    (closed : ∀ (c : Chat.Chunk) (r : ρ), Relay.isClosed r = true → Relay.accept c r = (r, []))
    (bare : ∀ c : Chat.Chunk, c.isBare → ∀ r : ρ, Relay.isClosed r = false →
      Relay.accept c r = first r)
    (next : ∀ a : Action Chat.Chunk, a ≠ .close → ∀ r : ρ, Relay.isClosed r = false →
      first.seq a.step r = a.step r) : Absorbs ρ := by
  intro c hc a ha
  funext r
  cases hr : Relay.isClosed r with
  | true => rw [Step.seq_apply, closed c r hr, List.nil_append]
  | false => rw [Step.seq_apply, bare c hc r hr, ← Step.seq_apply, next a ha r hr]

/-- Nobody leaves who is not said to. -/
theorem ending_ne_left {ending : List (Action Chat.Chunk) → Merging.Ending}
    (none : ending [] = .none)
    (accept : ∀ c rest, (∃ reason, ending (.accept c :: rest) = .stopped reason) ∨
      ending (.accept c :: rest) = ending rest)
    (finish : ∀ rest, ∃ reason, ending (.finish :: rest) = .stopped reason)
    {actions : List (Action Chat.Chunk)} (stays : .close ∉ actions) : ending actions ≠ .left := by
  induction actions with
  | nil =>
    rw [none]
    exact nofun
  | cons a rest ih =>
    rw [List.mem_cons, not_or] at stays
    cases a with
    | accept c =>
      rcases accept c rest with ⟨reason, h⟩ | h <;> rw [h]
      · exact nofun
      · exact ih stays.2
    | finish =>
      obtain ⟨reason, h⟩ := finish rest
      rw [h]
      exact nofun
    | close => exact absurd rfl stays.1

/-- What the runs of a relay have to do with its message. -/
structure Honest (r : ρ) : Prop where
  brings : Delivery.Brings r
  absorbs : Absorbs ρ
  /-- A closed relay stays as it is. -/
  still : ∀ s : ρ, Relay.isClosed s = true → ∀ actions, run actions s = (s, [])
  /-- The client left alone, a closed relay has emitted a whole message. -/
  whole : ∀ actions, .close ∉ actions → Relay.isClosed (run actions r).1 = true →
    IsMessage (run actions r).2
  /-- An open relay has not come to the end of its message. -/
  amid : ∀ actions, Relay.isClosed (run actions r).1 = false →
    ∃ p, Place.before.read? (run actions r).2 = some p ∧ p ≠ .closing ∧ p ≠ .done

/-! ### The relay that merges -/

namespace Merging

/-- An open relay is amid its message. -/
theorem place_ne (r : Merging) : r.place ≠ .closing ∧ r.place ≠ .done := by
  unfold place
  cases r.openBlock <;> simp

theorem ending_of_stays {actions : List (Action Chat.Chunk)} (stays : .close ∉ actions) :
    ending actions ≠ .left := by
  refine ending_ne_left rfl (fun c rest => ?_) (fun _ => ⟨_, rfl⟩) stays
  rw [ending]
  split
  · exact .inl ⟨_, rfl⟩
  · exact .inr rfl

variable [Tokenizer]

/-- A bare chunk only opens the message. -/
theorem push_of_isBare {c : Chat.Chunk} (bare : c.isBare) {r : Merging} (h : r.phase ≠ .closed) :
    push c r = ensureMessage r := by
  rw [Chat.Chunk.isBare, Bool.and_eq_true, List.isEmpty_iff, Option.isNone_iff_eq_none] at bare
  have inputs : chunkInputs c = [.report none] := by
    rw [chunkInputs, chunkParts, bare.1, bare.2]
    rfl
  have reason : finishReason? c = none := by
    rw [finishReason?, bare.1]
    rfl
  rw [push_eq c h, inputs, reason]
  simp [Step.seq_apply, Input.take, Step.silent, closeFor, Step.forSome]

/-- Whatever is done next opens the message by itself. -/
theorem ensureMessage_step {a : Action Chat.Chunk} (ha : a ≠ .close) {r : Merging}
    (h : r.phase ≠ .closed) : ensureMessage.seq a.step r = (a.step : Step Merging) r := by
  by_cases idle : r.phase = .idle
  · obtain ⟨model, promptTokens, now, phase, nextIndex, openBlock, text, calls, queued, lastUsage,
      reported⟩ := r
    obtain rfl : phase = .idle := idle
    cases a with
    | accept chunk | finish => rfl
    | close => exact absurd rfl ha
  · have same : ensureMessage r = (r, []) := if_neg idle
    rw [Step.seq_apply, same, List.nil_append]

theorem honest (model : String) (promptTokens : Nat) (now : Instant) :
    Honest (start model promptTokens now) where
  brings := (drivable model promptTokens now).brings ⟨[], rfl⟩ rfl
  absorbs := .of_first (fun _ _ closed => if_pos (of_decide_eq_true closed))
    (fun _ bare _ isOpen => push_of_isBare bare (of_decide_eq_false isOpen))
    (fun _ ha _ isOpen => ensureMessage_step ha (of_decide_eq_false isOpen))
  still s closed actions := run_of_closed actions (of_decide_eq_true closed)
  whole actions stays closed := by
    have phase := phase_run_start model promptTokens now actions
    rw [of_decide_eq_true closed] at phase
    obtain ⟨p, hp, hd⟩ := read?_run_start model promptTokens now actions
    refine Place.read?_before_eq_some_done_iff.mp ?_
    cases he : ending actions with
    | none =>
      rw [he] at phase
      split_ifs at phase
    | left => exact absurd he (ending_of_stays stays)
    | stopped reason => rw [hp, hd.mpr ⟨reason, he⟩]
  amid actions isOpen := by
    have unclosed : ending actions = .none := by
      have phase := phase_run_start model promptTokens now actions
      cases he : ending actions with
      | none => rfl
      | left | stopped reason =>
        rw [he] at phase
        exact absurd phase (of_decide_eq_false isOpen)
    by_cases opening : opens actions = true
    · have rest := (atRest_opened model promptTokens now).read?_feed (inputs actions)
      have events : (run actions (start model promptTokens now)).2 =
          openingEvent model promptTokens now ::
            (feed (inputs actions) (opened model promptTokens now)).2 := by
        rw [run_start model promptTokens now opening, unclosed]
        simp only [Step.all_cons, Step.all_nil, Step.seq_emit_nil, Step.seq_apply,
          openMessage_start]
        exact congrArg (_ :: ·) (List.append_nil _)
      exact ⟨_, by rw [events]; exact rest, place_ne _⟩
    · obtain ⟨same, -⟩ := run_start_of_not_opens model promptTokens now
        (Bool.eq_false_iff.mpr opening)
      rw [same, unclosed]
      exact ⟨.before, rfl, nofun, nofun⟩

end Merging

/-! ### The relay that goes chunk by chunk -/

namespace PerChunk

/-- A bare chunk only opens the message. -/
theorem push_of_isBare {c : Chat.Chunk} (bare : c.isBare) {r : PerChunk} (h : ¬ r.closed = true) :
    push c r = ensureMessage r := by
  rw [Chat.Chunk.isBare, Bool.and_eq_true, List.isEmpty_iff] at bare
  have silent : c.toClaudeEvent? = none := by
    rw [Chat.Chunk.toClaudeEvent?, bare.1]
    rfl
  rw [push, if_neg h, bare.1, silent]
  simp [Step.seq_apply, Step.forSome, Step.emit]

/-- Whatever is done next opens the message by itself. -/
theorem ensureMessage_step {a : Action Chat.Chunk} (ha : a ≠ .close) {r : PerChunk}
    (h : ¬ r.closed = true) : ensureMessage.seq a.step r = (a.step : Step PerChunk) r := by
  by_cases begun : r.started = true
  · have same : ensureMessage r = (r, []) := if_pos begun
    rw [Step.seq_apply, same, List.nil_append]
  · obtain ⟨model, promptTokens, now, started, closed, nextIndex, openBlock, usage⟩ := r
    obtain rfl : started = false := Bool.eq_false_iff.mpr begun
    obtain rfl : closed = false := Bool.eq_false_iff.mpr h
    cases a with
    | accept chunk | finish => rfl
    | close => exact absurd rfl ha

theorem ending_of_stays {actions : List (Action Chat.Chunk)} (stays : .close ∉ actions) :
    ending actions ≠ .left := by
  refine ending_ne_left rfl (fun c rest => ?_) (fun _ => ⟨_, rfl⟩) stays
  rw [ending]
  split
  · exact .inl ⟨_, rfl⟩
  · exact .inr rfl

/-- A run that ends nothing can be read to the place that it leads to. -/
theorem Underway.read?_run {r : PerChunk} (hr : Underway r) {actions : List (Action Chat.Chunk)}
    (unended : ending actions = .none) :
    r.place.read? (run actions r).2 = some (run actions r).1.place := by
  induction actions generalizing r with
  | nil => rfl
  | cons a rest ih =>
    cases a with
    | accept chunk =>
      rw [ending] at unended
      split at unended
      · cases unended
      case h_2 unclosed =>
        have event : Reads Anywhere (Step.forSome chunk.toClaudeEvent? onEvent) Anywhere :=
          .forSome _ (fun event he => reads_onEvent (Chat.Chunk.goes_of_toClaudeEvent? unclosed he))
            fun _ _ => trivial
        obtain ⟨read, hr', -⟩ := (reads_reasoning chunk).seq event r hr trivial
        have step : (Action.accept chunk).step r = _ := hr.push_eq chunk
        rw [run_cons, Step.seq_apply, step]
        exact Place.read?_append_of_eq read (ih hr' unended)
    | finish | close => cases unended

theorem honest (model : String) (promptTokens : Nat) (now : Instant) :
    Honest (start model promptTokens now) where
  brings := drivable.brings trivial rfl
  absorbs := .of_first (fun _ _ closed => if_pos closed)
    (fun _ bare _ isOpen => push_of_isBare bare (Bool.eq_false_iff.mp isOpen))
    (fun _ ha _ isOpen => ensureMessage_step ha (Bool.eq_false_iff.mp isOpen))
  still s closed actions := run_of_isClosed actions closed
  whole actions stays closed := by
    obtain ⟨⟨p, hp, hd⟩, hc, -⟩ := run_start_endsAs model promptTokens now actions
    refine Place.read?_before_eq_some_done_iff.mp ?_
    cases he : ending actions with
    | none => exact absurd he (hc.mp closed)
    | left => exact absurd he (ending_of_stays stays)
    | stopped reason => rw [hp, hd.mpr ⟨reason, he⟩]
  amid actions isOpen := by
    have unended : ending actions = .none := by
      by_contra ended
      have closed := (run_start_endsAs model promptTokens now actions).closed_iff.mpr ended
      exact absurd (isOpen.symm.trans closed) Bool.false_ne_true
    cases actions with
    | nil => exact ⟨.before, rfl, nofun, nofun⟩
    | cons a rest =>
      have ha : a ≠ .close := by
        rintro rfl
        cases unended
      have read := (underway_opened model promptTokens now).read?_run unended
      rw [run_start model promptTokens now ha rest]
      exact ⟨_, read, Underway.place_ne _⟩

end PerChunk

/-- Until it is closed, a relay runs through the actions. -/
theorem Honest.course_eq {r : ρ} (h : Honest r) (limit : Nat)
    (arrivals : List (Arrival Chat.Chunk)) :
    Delivery.course limit arrivals r = run (Delivery.actions limit arrivals) r := by
  have runs : ∀ (actions : List (Action Chat.Chunk)) (s : ρ),
      Delivery.untilClosed actions s = run actions s := by
    intro actions
    induction actions with
    | nil => exact fun _ => rfl
    | cons a actions ih =>
      intro s
      by_cases closed : Relay.isClosed s = true
      · rw [Delivery.untilClosed_of_closed closed, h.still s closed]
      · have step : Delivery.untilClosed (a :: actions) s =
            Step.seq a.step (Delivery.untilClosed actions) s := if_neg closed
        rw [step, run_cons, Step.seq_apply, Step.seq_apply, ih]
  exact runs _ r

theorem close_not_mem_actions (limit : Nat) (arrivals : List (Arrival Chat.Chunk)) :
    .close ∉ Delivery.actions limit arrivals := by
  unfold Delivery.actions
  split <;> simp

end Relay

namespace Delivery

variable {ρ : Type} [Relay ρ Chat.Chunk]

/-- How a stream of payloads is delivered to a client that stays and takes what comes, in whatever
order of turns. If the delivery fails, the client gets an error for the last event, but no closing
delta and no stop. Otherwise nothing interrupted the stream while the relay was open, and the client
gets a whole message. A stream that nothing interrupts only fails if the clock rings, and reports of
errors make no difference to what it brings. -/
def Passes (r : ρ) : Prop :=
  (∀ (limit : Nat) (payloads : List (Arrival String)) (turns : List Party) (out : Outcome ρ),
    let chunks := decodePayloads Chat.Chunk.ofJson? payloads
    ((Handover.start limit chunks r ⟨[], none, none⟩).after turns).result? = some out →
      (∀ error, out.failure = some error →
        (∃ front, out.client.taken = front ++ [errorEvent error]) ∧
          .messageStop ∉ out.client.taken ∧
          ∀ reason sequence usage, .messageDelta reason sequence usage ∉ out.client.taken) ∧
      (out.failure = none → failure? limit chunks r = none ∧ IsMessage out.client.taken)) ∧
  ∀ (limit : Nat) (payloads : List String) (turns turns' : List Party) (out out' : Outcome ρ),
    let chunks := decodePayloads Chat.Chunk.ofJson? (payloads.map .item)
    let others := decodePayloads Chat.Chunk.ofJson? ((payloads.filter (!isReport ·)).map .item)
    ((Handover.start limit chunks r ⟨[], none, none⟩).after turns).result? = some out →
    ((Handover.start limit others r ⟨[], none, none⟩).after turns').result? = some out' →
      (.clock ∉ turns → out.failure = none) ∧
      (out.failure = none → out'.failure = none → out.client.taken = out'.client.taken)

section

variable {r : ρ} {limit : Nat} {arrivals : List (Arrival Chat.Chunk)}

theorem actions_map (limit : Nat) (chunks : List Chat.Chunk) :
    actions limit (chunks.map .item) = chunks.map .accept ++ [.finish] := by
  have whole := actions_append limit chunks []
  rwa [List.append_nil] at whole

/-- Streams that differ in bare chunks have the same course, if nothing interrupts them. -/
theorem course_congr (h : Relay.Honest r) {chunks others : List Chat.Chunk}
    (same : chunks.filter (!·.isBare) = others.filter (!·.isBare)) (limit : Nat) :
    course limit (chunks.map .item) r = course limit (others.map .item) r := by
  rw [h.course_eq, h.course_eq, actions_map, actions_map, h.absorbs.run_filter, same,
    ← h.absorbs.run_filter]

/-- A delivery that fails is amid the message. -/
theorem unclosed_of_failed (h : Relay.Honest r) {turns : List Party} {out : Outcome ρ}
    {error : Error}
    (ended : ((Handover.start limit arrivals r ⟨[], none, none⟩).after turns).result? = some out)
    (failed : out.failure = some error) :
    (∃ front, out.client.taken = front ++ [errorEvent error]) ∧
      .messageStop ∉ out.client.taken ∧
      ∀ reason sequence usage, .messageDelta reason sequence usage ∉ out.client.taken := by
  obtain ⟨-, rfl⟩ := (Handover.follows_after limit arrivals r _ turns).of_result? ended
  obtain ⟨-, amid, -, taken⟩ := h.brings.of_failed failed
  rw [told, if_neg (Option.some_ne_none _).symm] at taken
  rw [h.course_eq] at amid taken
  obtain ⟨p, hp, notClosing, notDone⟩ := h.amid _ amid
  refine ⟨⟨_, taken⟩, ?_, fun reason sequence usage => ?_⟩
  · have unstopped := mt (Place.mem_messageStop_iff (by simp) hp).mp notDone
    rw [taken]
    simpa [errorEvent] using unstopped
  · have unclosed := Place.not_mem_messageDelta hp notClosing notDone reason sequence usage
    rw [taken]
    simpa [errorEvent] using unclosed

theorem passes_of_honest (h : Relay.Honest r) : Passes r := by
  refine ⟨fun limit payloads turns out => ?_, fun limit payloads turns turns' out out' => ?_⟩
  · intro chunks ended
    refine ⟨fun error failed => unclosed_of_failed h ended failed, fun unfailed => ?_⟩
    obtain ⟨uninterrupted, relay, closed, taken⟩ :=
      h.brings.of_finished ended unfailed Bool.false_ne_true
    rw [relay] at closed
    rw [h.course_eq] at closed taken
    exact ⟨uninterrupted, taken ▸ h.whole _ (Relay.close_not_mem_actions _ _) closed⟩
  · obtain ⟨chunks, others, hchunks, hothers, same⟩ := exists_chunks payloads
    rw [hchunks, hothers]
    intro _ _ ended ended'
    refine ⟨fun quiet => ?_, fun unfailed unfailed' => ?_⟩
    · have stage := (Handover.follows_after limit _ r _ turns).of_result? ended |>.1
      cases failure : out.failure with
      | none => rfl
      | some error =>
        rw [failure] at stage
        rcases Handover.cause_of_failed stage with reported | ⟨-, rung⟩
        · obtain ⟨c, -, isItem⟩ := List.mem_map.mp reported
          cases isItem
        · exact absurd rung quiet
    · have taken := (h.brings.of_finished ended unfailed Bool.false_ne_true).2.2.2
      have taken' := (h.brings.of_finished ended' unfailed' Bool.false_ne_true).2.2.2
      rw [taken, taken', course_congr h same]

end

/-- What the relays of chat streams make of errors. -/
theorem passes_start [Tokenizer] (model : String) (promptTokens : Nat) (now : Instant) :
    Passes (Relay.Merging.start model promptTokens now) ∧
      Passes (Relay.PerChunk.start model promptTokens now) :=
  ⟨passes_of_honest (Relay.Merging.honest model promptTokens now),
    passes_of_honest (Relay.PerChunk.honest model promptTokens now)⟩

/-- A text, and then a report in its place. -/
def overloaded : List String :=
  ["\x7b\"choices\":[\x7b\"index\":0,\"delta\":\x7b\"content\":\"a\"\x7d\x7d]\x7d",
    "\x7b\"error\":\x7b\"message\":\"overloaded\"\x7d\x7d"]

/-- The answer ends as if the provider had finished it. -/
theorem run_overloaded :
    let chunks := decodePayloads Chat.Chunk.ofJson? (overloaded.map .item)
    let merged := run 1 chunks (Relay.Merging.start "m" 1 ⟨0⟩) ⟨[], none, none⟩
    let single := run 1 chunks (Relay.PerChunk.start "m" 1 ⟨0⟩) ⟨[], none, none⟩
    overloaded.map isReport = [false, true] ∧
      merged.failure = none ∧ merged.client.taken.drop 3 =
        [.blockStop 0, .messageDelta (some .endTurn) none (.of 1 1), .messageStop] ∧
      single.failure = none ∧ single.client.taken.drop 3 =
        [.blockStop 0, .messageDelta (some .endTurn) none (.of 0 0), .messageStop] := by
  decide +kernel

end Delivery

end Switchboard
