import Switchboard.Proofs.Merging.Input
import Switchboard.Proofs.Merging.Move
import Switchboard.Relay.PerChunk

/-!
# A relay that goes chunk by chunk emits one message

A single chunk comes to an event that knows nothing of the chunks before it : every text
claims block zero, and the pieces of a call claim the number that the provider gave the
call. Whatever chunks come, and whatever else is done to a fresh relay, its events are the
front of a message all the same. The message is whole exactly if a chunk that closes it, or
the end of the stream, came before the client went away. From then on the relay is silent,
and it has the usage of the closing delta, if it emitted one (`run_start_readable`).

The place in the message can be read off the relay (`place`). Each part of a step leads a
reader of its events from the place before it to the one after it (`Reads`), and parts in a
row lead on in a row. Part by part, too, one can say how many blocks are begun (`Begins`).
-/

namespace Switchboard

open Claude (Event Block Delta Place StopReason)

/-! ## The event of a chunk -/

namespace Chat

/-- The reason with which a chunk closes the message: text, and pieces of calls that say
something, go before it. -/
def Chunk.closingReason? (chunk : Chunk) : Option FinishReason := do
  let choice ← chunk.choices.head?
  if nonEmpty? choice.delta.content = none ∧
      ∀ d ∈ choice.delta.toolCalls.getD [],
        nonEmpty? d.name? = none ∧ nonEmpty? d.arguments? = none then
    choice.finishReason
  else none

/-- The usage that a closing chunk reports. -/
def Chunk.closingUsage (chunk : Chunk) : Claude.Usage :=
  chunk.usage.elim (.of 0 0) fun u => .of u.promptTokens u.completionTokens

/-- The events that a chunk can come to while the answer goes on. -/
inductive Goes : Event → Prop
  | text (s : String) : Goes (.blockDelta 0 (.text s))
  | call (index : Nat) (id name : String) : Goes (.blockStart index (.toolUse id name (.object [])))
  | arguments (index : Nat) (s : String) : Goes (.blockDelta index (.inputJson s))

theorem ToolCallDelta.goes {d : ToolCallDelta} {event : Event}
    (h : d.toClaudeEvent? = some event) : Goes event := by
  unfold toClaudeEvent? at h
  split at h
  · obtain rfl := Option.some.inj h
    exact .call _ _ _
  · obtain rfl := Option.some.inj h
    exact .arguments _ _
  · cases h

theorem ToolCallDelta.toClaudeEvent?_eq_none_iff {d : ToolCallDelta} :
    d.toClaudeEvent? = none ↔ nonEmpty? d.name? = none ∧ nonEmpty? d.arguments? = none := by
  unfold toClaudeEvent?
  cases nonEmpty? d.name? <;> cases nonEmpty? d.arguments? <;> simp

/-- A chunk that closes the message comes to its closing delta. -/
theorem Chunk.toClaudeEvent?_of_closing {chunk : Chunk} {reason : FinishReason}
    (h : chunk.closingReason? = some reason) : chunk.toClaudeEvent? =
      some (.messageDelta (some (stopReason (some reason))) none chunk.closingUsage) := by
  obtain ⟨choice, first, h⟩ := Option.bind_eq_some_iff.mp h
  split_ifs at h with quiet
  have hcalls : (choice.delta.toolCalls.getD []).findSome? ToolCallDelta.toClaudeEvent? = none :=
    List.findSome?_eq_none_iff.mpr fun d hd =>
      ToolCallDelta.toClaudeEvent?_eq_none_iff.mpr (quiet.2 d hd)
  simp only [toClaudeEvent?, first, quiet.1, hcalls, h, Option.bind_eq_bind, Option.bind_some]
  unfold closingUsage
  cases chunk.usage <;> rfl

/-- A chunk that does not close the message comes to an event amid the answer, if to any. -/
theorem Chunk.goes_of_toClaudeEvent? {chunk : Chunk} {event : Event}
    (h : chunk.closingReason? = none) (he : chunk.toClaudeEvent? = some event) : Goes event := by
  unfold toClaudeEvent? at he
  obtain ⟨choice, first, he⟩ := Option.bind_eq_some_iff.mp he
  split at he
  · obtain rfl := Option.some.inj he
    exact .text _
  case h_2 silent =>
    split at he
    case h_1 found =>
      obtain rfl := Option.some.inj he
      obtain ⟨d, -, hd⟩ := List.exists_of_findSome?_eq_some found
      exact ToolCallDelta.goes hd
    case h_2 uncalled =>
      -- Nothing goes before the reason, so the chunk closes the message.
      obtain ⟨reason, hr, -⟩ := Option.bind_eq_some_iff.mp he
      have quiet : ∀ d ∈ choice.delta.toolCalls.getD [],
          nonEmpty? d.name? = none ∧ nonEmpty? d.arguments? = none := fun d hd =>
        ToolCallDelta.toClaudeEvent?_eq_none_iff.mp (List.findSome?_eq_none_iff.mp uncalled d hd)
      have hclose : chunk.closingReason? = some reason := by
        simp only [closingReason?, first, Option.bind_eq_bind, Option.bind_some]
        rw [if_pos ⟨silent, quiet⟩, hr]
      rw [h] at hclose
      cases hclose

end Chat

namespace Relay.PerChunk

open Merging (Ending)

variable {r : PerChunk} {P Q R : PerChunk → Prop} {f g : Step PerChunk}

/-! ## Places -/

/-- A relay amid its message. -/
structure Underway (r : PerChunk) : Prop where
  started : r.started = true
  isOpen : r.closed = false
  unreported : r.usage = none
  numbered : ∀ b, r.openBlock = some b → b.index + 1 = r.nextIndex

/-- The place in the message that a relay has come to that is amid it. -/
def place (r : PerChunk) : Place :=
  match r.openBlock with
  | none => .between r.nextIndex
  | some b => .inside b.index b.kind.form

theorem place_of_open {b : OpenBlock} (h : r.openBlock = some b) :
    r.place = .inside b.index b.kind.form := by
  simp only [place, h]

theorem place_of_idle (h : r.openBlock = none) : r.place = .between r.nextIndex := by
  simp only [place, h]

/-- From a relay amid its message where `P` holds, a step emits what can be read next, and
leads to a place amid the message where `Q` holds. -/
def Reads (P : PerChunk → Prop) (f : Step PerChunk) (Q : PerChunk → Prop) : Prop :=
  ∀ r, Underway r → P r →
    r.place.read? (f r).2 = some (f r).1.place ∧ Underway (f r).1 ∧ Q (f r).1

/-- Anywhere in the message. -/
def Anywhere (_ : PerChunk) : Prop := True

/-- A block of a kind is open. -/
def HasOpen (kind : BlockKind) (r : PerChunk) : Prop := r.openBlock.map (·.kind) = some kind

instance (kind : BlockKind) : DecidablePred (HasOpen kind) := fun r =>
  inferInstanceAs (Decidable (r.openBlock.map (·.kind) = some kind))

theorem HasOpen.exists_block {kind : BlockKind} (h : HasOpen kind r) :
    ∃ b, r.openBlock = some b ∧ b.kind = kind :=
  Option.map_eq_some_iff.mp h

namespace Reads

theorem seq (hf : Reads P f Q) (hg : Reads Q g R) : Reads P (f.seq g) R := by
  intro r hr hp
  obtain ⟨he, hr', hq⟩ := hf r hr hp
  obtain ⟨he', hr'', ht⟩ := hg _ hr' hq
  exact ⟨Place.read?_append_of_eq he he', hr'', ht⟩

theorem emit_nil (h : ∀ r, P r → Q r) : Reads P (Step.emit []) Q :=
  fun r hr hp => ⟨rfl, hr, h r hp⟩

theorem forSome {α : Type} {f : α → Step PerChunk} (value : Option α)
    (hf : ∀ a, value = some a → Reads P (f a) Q) (h : ∀ r, P r → Q r) :
    Reads P (Step.forSome value f) Q := by
  cases value with
  | none => exact emit_nil h
  | some a => exact hf a rfl

theorem ite {p : PerChunk → Prop} [DecidablePred p] (hf : Reads (fun r => P r ∧ p r) f Q)
    (hg : Reads (fun r => P r ∧ ¬p r) g Q) : Reads P (fun r => if p r then f r else g r) Q := by
  intro r hr hp
  by_cases h : p r
  · simp only [if_pos h]
    exact hf r hr ⟨hp, h⟩
  · simp only [if_neg h]
    exact hg r hr ⟨hp, h⟩

end Reads

/-! ## Blocks -/

theorem reads_stopBlock : Reads P stopBlock fun r => r.openBlock = none := by
  intro r hr _
  unfold stopBlock
  cases hb : r.openBlock with
  | none => exact ⟨rfl, hr, hb⟩
  | some b =>
    refine ⟨?_, { hr with numbered := nofun }, rfl⟩
    rw [place_of_open hb, place_of_idle rfl, ← hr.numbered b hb]
    simp [Place.read?, Place.next?]

theorem reads_startBlock (kind : BlockKind) {block : Block}
    (fresh : block.form? = some kind.form) : Reads P (startBlock kind block) (HasOpen kind) := by
  refine reads_stopBlock.seq fun r hr idle => ⟨?_, ?_, rfl⟩
  · rw [place_of_idle idle, place_of_open rfl]
    simp [Place.read?, Place.next?, fresh]
  · exact { hr with numbered := fun b hb => by rw [← Option.some.inj hb] }

theorem reads_ensureBlock (kind : BlockKind) {block : Block}
    (fresh : block.form? = some kind.form) : Reads P (ensureBlock kind block) (HasOpen kind) :=
  .ite (.emit_nil fun _ h => h.2) (reads_startBlock kind fresh)

theorem reads_emitDelta (kind : BlockKind) {delta : Delta}
    (fits : delta.form? = some kind.form) :
    Reads (HasOpen kind) (emitDelta delta) (HasOpen kind) := by
  intro r hr hk
  obtain ⟨b, hb, rfl⟩ := hk.exists_block
  simp only [emitDelta, hb]
  refine ⟨?_, hr, hk⟩
  rw [place_of_open hb]
  simp [Place.read?, Place.next?, fits]

/-! ## The parts of a chunk -/

theorem reads_onReasoning (delta : Chat.Delta) : Reads P (onReasoning delta) Anywhere := by
  simp only [onReasoning, Step.all_cons, Step.all_nil, Step.seq_emit_nil]
  split
  · exact .emit_nil fun _ _ => trivial
  · refine (reads_ensureBlock .thinking rfl).seq (.seq (Q := HasOpen .thinking) ?_ ?_)
    · exact .forSome _ (fun s _ => reads_emitDelta _ rfl) fun _ h => h
    · exact .forSome _ (fun s _ => (reads_emitDelta _ rfl).seq
        fun r hr hk => (reads_stopBlock r hr hk).imp_right (.imp_right fun _ => trivial))
        fun _ _ => trivial

/-- The event of a chunk amid the answer is fitted in wherever the message is. Arguments
outside of their block are dropped. -/
theorem reads_onEvent {event : Event} (h : Chat.Goes event) :
    Reads Anywhere (onEvent event) Anywhere := by
  have anywhere {f : Step PerChunk} {P : PerChunk → Prop} {kind : BlockKind}
      (hf : Reads P f (HasOpen kind)) : Reads P f Anywhere :=
    fun r hr hp => (hf r hr hp).imp_right (.imp_right fun _ => trivial)
  cases h with
  | text s =>
    exact anywhere ((reads_ensureBlock .text rfl).seq (reads_emitDelta _ rfl))
  | call index id name => exact anywhere (reads_startBlock (.call index) rfl)
  | arguments index s =>
    refine .ite (p := HasOpen (.call index)) ?_ (.emit_nil fun _ _ => trivial)
    exact fun r hr hp => anywhere (reads_emitDelta (.call index) rfl) r hr hp.2

/-- The end of the message can be read wherever the message is. -/
theorem closeMessage_eq (hr : Underway r) (reason : Option StopReason) (sequence : Option String)
    (usage : Claude.Usage) : ∃ events,
      closeMessage reason sequence usage r =
        ({ (stopBlock r).1 with usage := some usage, closed := true },
          events ++ Claude.closingEvents reason sequence usage) ∧
      ∃ n, r.place.read? events = some (.between n) := by
  obtain ⟨he, -, idle⟩ := reads_stopBlock (P := Anywhere) r hr trivial
  exact ⟨(stopBlock r).2, rfl, _, by rw [he, place_of_idle idle]⟩

/-! ## How a run ends -/

/-- The first thing that ends the message. -/
def ending : List (Action Chat.Chunk) → Ending
  | [] => .none
  | .accept chunk :: rest =>
    match chunk.closingReason? with
    | some reason => .stopped (Chat.stopReason (some reason))
    | none => ending rest
  | .finish :: _ => .stopped .endTurn
  | .close :: _ => .left

/-- A closed relay stays as it is. -/
theorem run_of_isClosed (actions : List (Action Chat.Chunk)) (h : r.closed = true) :
    run actions r = (r, []) := by
  induction actions with
  | nil => rfl
  | cons a actions ih =>
    have ha : a.step r = (r, []) := by
      cases a with
      | accept chunk => exact if_pos h
      | finish => exact if_pos h
      | close =>
        show ({ r with closed := true }, []) = (r, [])
        rw [← h]
    rw [run_cons, Step.seq_apply, ha, ih, List.append_nil]

/-- What a reader at a place makes of the events of a run, and the relay behind them, by how
the message ended. -/
structure EndsAs (e : Ending) (p : Place) (out : PerChunk × List Event) : Prop where
  readable : ∃ q, p.read? out.2 = some q ∧ (q = .done ↔ ∃ reason, e = .stopped reason)
  closed_iff : out.1.closed = true ↔ e ≠ .none
  usage_iff : ∀ u, out.1.usage = some u ↔
    ∃ reason sequence, .messageDelta reason sequence u ∈ out.2

/-- Amid the message nothing has ended it, and no usage is known. -/
theorem Underway.place_ne (r : PerChunk) : r.place ≠ .closing ∧ r.place ≠ .done := by
  unfold place
  cases r.openBlock <;> simp

namespace EndsAs

variable {e : Ending} {xs : List Event} {out : PerChunk × List Event}

/-- What is read on the way to a place does not change how the message ends from there. -/
theorem after {p : Place} (h : EndsAs e r.place out) (hx : p.read? xs = some r.place) :
    EndsAs e p (out.1, xs ++ out.2) where
  readable :=
    let ⟨q, hq, hd⟩ := h.readable
    ⟨q, Place.read?_append_of_eq hx hq, hd⟩
  closed_iff := h.closed_iff
  usage_iff u := by
    have hn := Place.not_mem_messageDelta hx (Underway.place_ne r).1 (Underway.place_ne r).2
    rw [h.usage_iff u]
    refine exists_congr fun reason => exists_congr fun sequence => ?_
    simp [hn reason sequence u]

end EndsAs

theorem Underway.endsAs_none (hr : Underway r) : EndsAs .none r.place (r, []) where
  readable := ⟨r.place, rfl, by simp [(place_ne r).2]⟩
  closed_iff := by simp [hr.isOpen]
  usage_iff u := by simp [hr.unreported]

theorem Underway.endsAs_left (hr : Underway r) :
    EndsAs .left r.place ({ r with closed := true }, []) where
  readable := ⟨r.place, rfl, by simp [(place_ne r).2]⟩
  closed_iff := by simp
  usage_iff u := by simp [hr.unreported]

theorem Underway.endsAs_closeMessage (hr : Underway r) (why : StopReason)
    (reason : Option StopReason) (sequence : Option String) (usage : Claude.Usage) :
    EndsAs (.stopped why) r.place (closeMessage reason sequence usage r) := by
  obtain ⟨events, he, n, hn⟩ := closeMessage_eq hr reason sequence usage
  have hm := Place.not_mem_messageDelta hn (by simp) (by simp)
  rw [he]
  refine ⟨⟨.done, Place.read?_append_of_eq hn rfl, by simp⟩, by simp, fun u => ?_⟩
  simp only [Claude.closingEvents, List.mem_append, hm, List.mem_cons, Event.messageDelta.injEq,
    reduceCtorEq, List.not_mem_nil, or_false, false_or, Option.some.injEq, exists_and_left]
  constructor
  · rintro rfl
    exact ⟨reason, rfl, sequence, rfl, rfl⟩
  · rintro ⟨-, -, -, -, rfl⟩
    rfl

/-- A relay amid its message takes the reasoning of a chunk, and then its event. -/
theorem Underway.push_eq (hr : Underway r) (chunk : Chat.Chunk) :
    push chunk r =
      Step.seq (Step.forSome chunk.choices.head? fun choice => onReasoning choice.delta)
        (Step.forSome chunk.toClaudeEvent? onEvent) r := by
  have hs : ensureMessage r = (r, []) := if_pos hr.started
  simp only [push, hr.isOpen, Bool.false_eq_true, if_false, Step.all_cons, Step.all_nil,
    Step.seq_emit_nil, Step.seq_apply, hs, List.nil_append]

/-- The reasoning of a chunk is read before its event. -/
theorem reads_reasoning (chunk : Chat.Chunk) :
    Reads Anywhere (Step.forSome chunk.choices.head? fun choice => onReasoning choice.delta)
      Anywhere :=
  .forSome _ (fun choice _ => reads_onReasoning choice.delta) fun _ _ => trivial

/-- The step that ends the message. -/
def endStep (usage : Claude.Usage) : Ending → Step PerChunk
  | .none => Step.emit []
  | .left => Step.silent fun r => { r with closed := true }
  | .stopped reason => closeMessage (some reason) none usage

/-- A run from amid the message reads on to another place there, and ends the message from
that one. -/
theorem Underway.exists_run (hr : Underway r) (actions : List (Action Chat.Chunk)) :
    ∃ xs r' usage, r.place.read? xs = some (place r') ∧ Underway r' ∧
      run actions r = ((endStep usage (ending actions) r').1,
        xs ++ (endStep usage (ending actions) r').2) := by
  induction actions generalizing r with
  | nil => exact ⟨[], r, .of 0 0, rfl, hr, rfl⟩
  | cons a actions ih =>
    rw [run_cons, Step.seq_apply]
    cases a with
    | accept chunk =>
      have hs : (Action.accept chunk).step r = push chunk r := rfl
      rw [hs, hr.push_eq chunk, Step.seq_apply]
      obtain ⟨hx, hr', -⟩ := reads_reasoning chunk r hr trivial
      generalize Step.forSome chunk.choices.head? _ r = thought at hx hr'
      cases hc : chunk.closingReason? with
      | some reason =>
        refine ⟨thought.2, thought.1, chunk.closingUsage, hx, hr', ?_⟩
        rw [Chat.Chunk.toClaudeEvent?_of_closing hc, ending, hc]
        simp only [Step.forSome, onEvent]
        rw [run_of_isClosed actions rfl, List.append_nil]
        rfl
      | none =>
        have hreads : Reads Anywhere (Step.forSome chunk.toClaudeEvent? onEvent) Anywhere :=
          .forSome _ (fun event he => reads_onEvent (Chat.Chunk.goes_of_toClaudeEvent? hc he))
            fun _ _ => trivial
        obtain ⟨hy, hr'', -⟩ := hreads _ hr' trivial
        obtain ⟨xs, r', usage, hz, hu, he⟩ := ih hr''
        refine ⟨_, r', usage, Place.read?_append_of_eq (Place.read?_append_of_eq hx hy) hz, hu, ?_⟩
        simp only [ending, hc, he, List.append_assoc]
    | finish =>
      have hs : (Action.finish : Action Chat.Chunk).step r =
          closeMessage (some .endTurn) none (.of 0 0) r := by
        have hs : ensureMessage r = (r, []) := if_pos hr.started
        show finish r = _
        simp only [finish, hr.isOpen, Bool.false_eq_true, if_false, Step.seq_apply, hs,
          List.nil_append]
      refine ⟨[], r, .of 0 0, rfl, hr, ?_⟩
      rw [hs, run_of_isClosed actions rfl, List.append_nil]
      rfl
    | close =>
      refine ⟨[], r, .of 0 0, rfl, hr, ?_⟩
      rw [run_of_isClosed actions rfl]
      rfl

theorem Underway.run_endsAs (hr : Underway r) (actions : List (Action Chat.Chunk)) :
    EndsAs (ending actions) r.place (run actions r) := by
  obtain ⟨xs, r', usage, hx, hr', he⟩ := hr.exists_run actions
  have hs : EndsAs (ending actions) r'.place (endStep usage (ending actions) r') :=
    match ending actions with
    | .none => hr'.endsAs_none
    | .left => hr'.endsAs_left
    | .stopped reason => hr'.endsAs_closeMessage reason (some reason) none usage
  rw [he]
  exact hs.after hx

/-! ## How many blocks there are -/

/-- A step begins at most so many blocks. -/
def Begins (n : Nat) (f : Step PerChunk) : Prop := ∀ r, (f r).1.nextIndex ≤ r.nextIndex + n

namespace Begins

variable {k m n : Nat}

theorem seq (hf : Begins m f) (hg : Begins n g) (h : m + n ≤ k) : Begins k (f.seq g) := by
  intro r
  have first := hf r
  have second := hg (f r).1
  show (g (f r).1).1.nextIndex ≤ r.nextIndex + k
  omega

theorem of_eq (h : ∀ r, (f r).1.nextIndex = r.nextIndex) : Begins n f :=
  fun r => h r ▸ Nat.le_add_right _ _

theorem mono (hf : Begins m f) (h : m ≤ n) : Begins n f :=
  fun r => Nat.le_trans (hf r) (Nat.add_le_add_left h _)

theorem forSome {α : Type} {f : α → Step PerChunk} (h : ∀ a, Begins n (f a)) (value : Option α) :
    Begins n (Step.forSome value f) := by
  cases value with
  | none => exact of_eq fun _ => rfl
  | some a => exact h a

theorem ite {p : PerChunk → Prop} [DecidablePred p] (hf : Begins n f) (hg : Begins n g) :
    Begins n fun r => if p r then f r else g r := by
  intro r
  by_cases h : p r
  · simpa only [if_pos h] using hf r
  · simpa only [if_neg h] using hg r

end Begins

theorem begins_stopBlock : Begins 0 stopBlock := .of_eq fun r => by
  unfold stopBlock
  cases r.openBlock <;> rfl

theorem begins_startBlock (kind : BlockKind) (block : Block) : Begins 1 (startBlock kind block) :=
  begins_stopBlock.seq (n := 1) (fun _ => Nat.le_refl _) (by omega)

theorem begins_ensureBlock (kind : BlockKind) (block : Block) :
    Begins 1 (ensureBlock kind block) :=
  .ite (.of_eq fun _ => rfl) (begins_startBlock kind block)

theorem begins_emitDelta (delta : Delta) : Begins 0 (emitDelta delta) := .of_eq fun r => by
  unfold emitDelta
  cases r.openBlock <;> rfl

theorem begins_closeMessage (reason : Option StopReason) (sequence : Option String)
    (usage : Claude.Usage) : Begins 0 (closeMessage reason sequence usage) :=
  begins_stopBlock.seq (n := 0) (.of_eq fun _ => rfl) (by omega)

theorem begins_onReasoning (delta : Chat.Delta) : Begins 1 (onReasoning delta) := by
  simp only [onReasoning, Step.all_cons, Step.all_nil, Step.seq_emit_nil]
  split
  · exact .of_eq fun _ => rfl
  · have thought : Begins 0 (Step.forSome
        (Chat.nonEmpty? (delta.reasoningContent.or (delta.thinking.bind (·.content))))
        fun s => emitDelta (.thinking s)) := .forSome (fun _ => begins_emitDelta _) _
    have signed : Begins 0 (Step.forSome (Chat.nonEmpty? (delta.thinking.bind (·.signature)))
        fun s => (emitDelta (.signature s)).seq stopBlock) :=
      .forSome (fun _ => (begins_emitDelta _).seq begins_stopBlock (by omega)) _
    exact (begins_ensureBlock _ _).seq (thought.seq signed (Nat.le_refl _)) (by omega)

theorem begins_onEvent (event : Event) : Begins 1 (onEvent event) := by
  unfold onEvent
  split
  · exact (begins_ensureBlock _ _).seq (begins_emitDelta _) (by omega)
  · exact begins_startBlock _ _
  · exact .ite ((begins_emitDelta _).mono (by omega)) (.of_eq fun _ => rfl)
  · exact (begins_closeMessage _ _ _).mono (by omega)
  · exact .of_eq fun _ => rfl

theorem begins_ensureMessage : Begins 0 ensureMessage :=
  .ite (.of_eq fun _ => rfl) (.of_eq fun _ => rfl)

/-- One block for the reasoning of a chunk, and one for what else is in it. -/
theorem begins_step (a : Action Chat.Chunk) : Begins 2 (a.step : Step PerChunk) := by
  cases a with
  | accept chunk =>
    refine .ite (.of_eq fun _ => rfl) ?_
    simp only [Step.all_cons, Step.all_nil, Step.seq_emit_nil]
    have reasoned : Begins 1 (Step.forSome chunk.choices.head? fun choice =>
        onReasoning choice.delta) := .forSome (fun _ => begins_onReasoning _) _
    have fitted : Begins 1 (Step.forSome chunk.toClaudeEvent? onEvent) :=
      .forSome begins_onEvent _
    exact begins_ensureMessage.seq (reasoned.seq fitted (Nat.le_refl _)) (by omega)
  | finish =>
    exact .ite (.of_eq fun _ => rfl) <| begins_ensureMessage.seq (n := 0)
      (begins_closeMessage _ _ _) (by omega)
  | close => exact .of_eq fun _ => rfl

theorem begins_run (actions : List (Action Chat.Chunk)) :
    Begins (2 * actions.length) (run actions : Step PerChunk) := by
  induction actions with
  | nil => exact .of_eq fun _ => rfl
  | cons a rest ih =>
    rw [run_cons]
    exact (begins_step a).seq ih (by rw [List.length_cons]; omega)

/-! ## Whole runs -/

section Whole

variable (model : String) (promptTokens : Nat) (now : Instant)

/-- A relay that has just opened its message. -/
def opened : PerChunk := { start model promptTokens now with started := true }

theorem underway_opened : Underway (opened model promptTokens now) := ⟨rfl, rfl, rfl, nofun⟩

/-- A fresh relay opens its message, and goes on as if it had been open. -/
theorem run_start {a : Action Chat.Chunk} (h : a ≠ .close) (rest : List (Action Chat.Chunk)) :
    run (a :: rest) (start model promptTokens now) =
      ensureMessage.seq (run (a :: rest)) (start model promptTokens now) := by
  have hs : a.step (start model promptTokens now) =
      ensureMessage.seq a.step (start model promptTokens now) := by
    cases a with
    | accept chunk | finish => rfl
    | close => exact absurd rfl h
  rw [run_cons, ← Step.seq_assoc, Step.seq_apply, hs, ← Step.seq_apply]

theorem run_start_endsAs (actions : List (Action Chat.Chunk)) :
    EndsAs (ending actions) .before (run actions (start model promptTokens now)) := by
  cases actions with
  | nil => exact ⟨⟨.before, rfl, by simp [ending]⟩, by simp [run, start, ending, Step.emit],
      by simp [run, start, Step.emit]⟩
  | cons a rest =>
    by_cases ha : a = .close
    · subst ha
      rw [run_cons, Step.seq_apply, run_of_isClosed rest rfl]
      exact ⟨⟨.before, rfl, by simp [ending]⟩,
        by simp [ending, Action.step, Step.silent, Relay.close],
        by simp [start, Action.step, Step.silent, Relay.close]⟩
    · rw [run_start model promptTokens now ha rest]
      exact ((underway_opened model promptTokens now).run_endsAs (a :: rest)).after rfl

/-- Whatever is done to a fresh relay, with whatever chunks, its events are the front of a
message. They are the whole message exactly if a chunk that closes it, or the end of the
stream, came before the client went away. After the end nothing is emitted any more, and the
relay has the usage of the closing delta that it emitted. A step begins two blocks at most, so that
the number of the next one has 32 bits in every run of fewer than `2 ^ 31` steps. -/
theorem run_start_readable (actions : List (Action Chat.Chunk)) :
    let out := run actions (start model promptTokens now)
    (∃ word, Claude.IsMessage word ∧ out.2 <+: word) ∧
      (Claude.IsMessage out.2 ↔ ∃ reason, ending actions = .stopped reason) ∧
      (.messageStop ∈ out.2 ↔ ∃ reason, ending actions = .stopped reason) ∧
      (Relay.isClosed out.1 = true ↔ ending actions ≠ .none) ∧
      (ending actions ≠ .none → ∀ later, run later out.1 = (out.1, [])) ∧
      (∀ u, Relay.usage? out.1 = some u ↔
        ∃ reason sequence, .messageDelta reason sequence u ∈ out.2) ∧
      out.1.nextIndex ≤ 2 * actions.length := by
  intro out
  obtain ⟨⟨p, hp, hd⟩, hc, hu⟩ := run_start_endsAs model promptTokens now actions
  have few : out.1.nextIndex ≤ 0 + 2 * actions.length := begins_run actions _
  refine ⟨Place.exists_isMessage_of_read? hp, ?_, ?_, hc, fun he later => ?_, hu,
    by omega⟩
  · rw [← Place.read?_before_eq_some_done_iff, ← hd, hp, Option.some_inj]
  · rw [Place.mem_messageStop_iff (by simp) hp, hd]
  · exact run_of_isClosed later (hc.mpr he)

end Whole

end Relay.PerChunk

end Switchboard
