import Mathlib.Data.List.Forall2
import Switchboard.Proofs.Merging.Run
import Switchboard.Relay.PerChunk

/-!
# Two relays for a conversation without tools

A conversation without tools may be relayed chunk by chunk, or by the merging relay. Who
reads the events sees no difference : whatever was done to the two of them before, the
next action makes both emit the same events, up to the id of the message and the usage at
its end, and the usage too if the chunk with the finish reason counts the tokens of the
answer (`alike_of_toolless`).

The two relays are in matching states all along (`Matches`). Every part of a step of the
one has a partner in a step of the other that keeps the states matching and emits alike
events (`Simulates`), and parts in a row have their partners in a row.
-/

namespace Switchboard

open Claude (Event Block StopReason)

/-! ## What may differ -/

/-- The same events, up to the id of a message at its start and the usage at its end. A
usage that was `counted` is the same, too. -/
inductive Claude.Event.Alike (counted : Prop) : Event → Event → Prop
  | same (event : Event) : Alike counted event event
  | opening (id id' model : String) (usage : Claude.Usage) :
      Alike counted (.messageStart (.empty id model usage)) (.messageStart (.empty id' model usage))
  | closing (reason : Option StopReason) (sequence : Option String) {usage usage' : Claude.Usage}
      (equal : counted → usage = usage') :
      Alike counted (.messageDelta reason sequence usage) (.messageDelta reason sequence usage')

/-- A choice without pieces of calls, which does not carry text along with a finish reason,
nor reasoning in both of its places. -/
structure Chat.ChunkChoice.IsToolless (choice : Chat.ChunkChoice) : Prop where
  noCalls : choice.delta.toolCalls.getD [] = []
  textOrReason : Chat.nonEmpty? choice.delta.content = none ∨ choice.finishReason = none
  oneReasoning :
    choice.delta.reasoningContent = none ∨ choice.delta.thinking.bind (·.content) = none

instance (choice : Chat.ChunkChoice) : Decidable choice.IsToolless :=
  decidable_of_iff (choice.delta.toolCalls.getD [] = [] ∧
      (Chat.nonEmpty? choice.delta.content = none ∨ choice.finishReason = none) ∧
      (choice.delta.reasoningContent = none ∨ choice.delta.thinking.bind (·.content) = none))
    ⟨fun ⟨h, h', h''⟩ => ⟨h, h', h''⟩, fun h => ⟨h.noCalls, h.textOrReason, h.oneReasoning⟩⟩

/-- Only the first choice of a chunk counts. -/
def Chat.Chunk.IsToolless (chunk : Chat.Chunk) : Prop :=
  ∀ choice ∈ chunk.choices.head?, choice.IsToolless

instance (chunk : Chat.Chunk) : Decidable chunk.IsToolless :=
  inferInstanceAs (Decidable (∀ choice ∈ chunk.choices.head?, choice.IsToolless))

namespace Relay

/-- A chunk that counts the tokens of the answer. -/
def Action.Counts : Action Chat.Chunk → Prop
  | accept chunk => ∃ usage, chunk.usage = some usage ∧ 0 < usage.completionTokens
  | finish | close => False

/-! ## Matching states -/

/-- The two relays have come equally far, no call waits, and `usage` was reported last. -/
structure Matches (usage : Option Chat.Usage) (p : PerChunk) (m : Merging) : Prop where
  model : p.model = m.model
  promptTokens : p.promptTokens = m.promptTokens
  phase : m.phase = if p.closed then .closed else if p.started then .streaming else .idle
  nextIndex : p.nextIndex = m.nextIndex
  openBlock : p.openBlock = m.openBlock
  queued : m.queued = []
  lastUsage : m.lastUsage = usage

theorem matches_start (model : String) (promptTokens : Nat) (now now' : Instant) :
    Matches none (.start model promptTokens now) (.start model promptTokens now') :=
  ⟨rfl, rfl, rfl, rfl, rfl, rfl, rfl⟩

/-- Steps that keep states matching and emit alike events. -/
def Simulates (counted : Prop) (usage : Option Chat.Usage) (f : Step PerChunk)
    (g : Step Merging) : Prop :=
  ∀ p m, Matches usage p m → Matches usage (f p).1 (g m).1 ∧
    List.Forall₂ (Event.Alike counted) (f p).2 (g m).2

variable {counted : Prop} {usage : Option Chat.Usage}

namespace Simulates

theorem seq {f f' : Step PerChunk} {g g' : Step Merging} (h : Simulates counted usage f g)
    (h' : Simulates counted usage f' g') : Simulates counted usage (f.seq f') (g.seq g') := by
  intro p m hm
  obtain ⟨hf, he⟩ := h p m hm
  obtain ⟨hf', he'⟩ := h' _ _ hf
  exact ⟨hf', List.rel_append he he'⟩

theorem emit (events : List Event) :
    Simulates counted usage (Step.emit events) (Step.emit events) := by
  intro p m hm
  exact ⟨hm, List.forall₂_same.mpr fun event _ => Event.Alike.same event⟩

theorem forSome {α : Type} (value : Option α) {f : α → Step PerChunk} {g : α → Step Merging}
    (h : ∀ a, Simulates counted usage (f a) (g a)) :
    Simulates counted usage (Step.forSome value f) (Step.forSome value g) := by
  cases value with
  | none => exact emit []
  | some a => exact h a

end Simulates

/-! ## Blocks -/

theorem simulates_stopBlock :
    Simulates counted usage PerChunk.stopBlock Merging.stopBlock := by
  intro p m h
  unfold PerChunk.stopBlock Merging.stopBlock
  rw [← h.openBlock]
  cases p.openBlock with
  | none => exact ⟨h, .nil⟩
  | some b => exact ⟨{ h with openBlock := rfl }, .cons (.same _) .nil⟩

/-- With no call waiting, to settle is to stop the open block. -/
theorem simulates_settle : Simulates counted usage PerChunk.stopBlock Merging.settle := by
  intro p m h
  rw [Merging.settle_eq_stopBlock h.queued]
  exact simulates_stopBlock p m h

theorem simulates_emitDelta (delta : Claude.Delta) :
    Simulates counted usage (PerChunk.emitDelta delta) (Merging.emitDelta delta) := by
  intro p m h
  unfold PerChunk.emitDelta Merging.emitDelta
  rw [← h.openBlock]
  cases p.openBlock with
  | none => exact ⟨h, .nil⟩
  | some b => exact ⟨h, .cons (.same _) .nil⟩

theorem simulates_ensureBlock (kind : BlockKind) (block : Block) :
    Simulates counted usage (PerChunk.ensureBlock kind block)
      (Merging.ensureBlock kind block) := by
  have hs : Simulates counted usage (PerChunk.startBlock kind block)
      (Merging.settle.seq (Merging.startBlock kind block)) := by
    refine simulates_settle.seq fun p m h => ?_
    have hn := h.nextIndex
    refine ⟨{ h with nextIndex := congrArg (· + 1) hn, openBlock := ?_ }, ?_⟩
    · exact congrArg (fun n => some (OpenBlock.mk n kind)) hn
    · rw [Merging.startBlock, hn]
      exact .cons (.same _) .nil
  intro p m h
  unfold PerChunk.ensureBlock Merging.ensureBlock
  rw [← h.openBlock]
  split
  · exact ⟨h, .nil⟩
  · exact hs p m h

/-! ## Reasoning -/

namespace PerChunk

/-- What comes of reasoning and of a signature. -/
def think (content signature : Option String) : Step PerChunk :=
  let content := Chat.nonEmpty? content
  let signature := Chat.nonEmpty? signature
  if content.isNone && signature.isNone then Step.emit []
  else Step.all
    [ensureBlock .thinking (.thinking "" none),
      Step.forSome content fun s => emitDelta (.thinking s),
      Step.forSome signature fun s => Step.seq (emitDelta (.signature s)) stopBlock]

theorem onReasoning_eq_think (delta : Chat.Delta) : onReasoning delta =
    think (delta.reasoningContent.or (delta.thinking.bind (·.content)))
      (delta.thinking.bind (·.signature)) :=
  rfl

theorem emitDelta_fst (delta : Claude.Delta) (p : PerChunk) : (emitDelta delta p).1 = p := by
  unfold emitDelta
  split <;> rfl

theorem ensureBlock_kind (kind : BlockKind) (block : Block) (p : PerChunk) :
    (ensureBlock kind block p).1.openBlock.map (·.kind) = some kind := by
  unfold ensureBlock
  split
  case isTrue h => exact h
  case isFalse => rfl

/-- Reasoning and the signature behind it may as well come one after the other. -/
theorem think_eq_seq (content signature : Option String) :
    think content signature = (think content none).seq (think none signature) := by
  have hn : Chat.nonEmpty? none = none := rfl
  funext p
  simp only [think, hn]
  cases hc : Chat.nonEmpty? content with
  | none => rfl
  | some s =>
    cases hs : Chat.nonEmpty? signature with
    | none => simp [Step.forSome]
    | some t =>
      -- The block of the reasoning is open when the signature comes.
      have hk := ensureBlock_kind .thinking (.thinking "" none) p
      generalize hp : ensureBlock .thinking (.thinking "" none) p = q at hk
      have hq : ensureBlock .thinking (.thinking "" none) q.1 = (q.1, []) := if_pos hk
      simp [Step.forSome, Step.seq_apply, Step.emit, hp, hq, emitDelta_fst]

end PerChunk

theorem simulates_think (content signature : Option String) :
    Simulates counted usage (PerChunk.think content signature)
      (Merging.onThinking content signature) := by
  simp only [PerChunk.think, Merging.onThinking]
  split
  · exact .emit []
  · refine .seq (simulates_ensureBlock _ _) (.seq ?_ (.seq ?_ (.emit [])))
    · exact .forSome _ fun s => simulates_emitDelta _
    · exact .forSome _ fun s => (simulates_emitDelta _).seq simulates_stopBlock

/-- The merging relay takes reasoning from its two places one after the other. -/
theorem simulates_onReasoning {choice : Chat.ChunkChoice} (h : choice.IsToolless) :
    Simulates counted usage (PerChunk.onReasoning choice.delta)
      (Step.seq (Step.forSome choice.delta.reasoningContent fun s =>
          Merging.onThinking (some s) none)
        (Step.forSome choice.delta.thinking fun t =>
          Merging.onThinking t.content t.signature)) := by
  rw [PerChunk.onReasoning_eq_think]
  have ho := h.oneReasoning
  cases hr : choice.delta.reasoningContent with
  | none =>
    cases ht : choice.delta.thinking with
    | none => exact .seq (f := Step.emit []) (.emit []) (.emit [])
    | some t => exact .seq (f := Step.emit []) (.emit []) (simulates_think t.content t.signature)
  | some s =>
    cases ht : choice.delta.thinking with
    | none =>
      simp only [Step.forSome, Step.seq_emit_nil]
      exact simulates_think (some s) none
    | some t =>
      have hc : t.content = none := by simpa [hr, ht] using ho
      simp only [Step.forSome, hc, Option.bind_some, Option.some_or]
      rw [PerChunk.think_eq_seq]
      exact (simulates_think (some s) none).seq (simulates_think none t.signature)

/-! ## Text and the end of the message -/

theorem simulates_text (s : String) :
    Simulates counted usage (PerChunk.onEvent (.blockDelta 0 (.text s))) (Merging.onText s) := by
  intro p m h
  have hm : Matches usage p { m with text := m.text ++ s } := { h with }
  exact ((simulates_ensureBlock .text (.plain "")).seq (simulates_emitDelta (.text s))) p _ hm

/-- What a chunk without text comes to on its own. -/
theorem toClaudeEvent?_of_silent {chunk : Chat.Chunk} {choice : Chat.ChunkChoice}
    (first : chunk.choices.head? = some choice) (h : choice.IsToolless)
    (silent : Chat.nonEmpty? choice.delta.content = none) :
    chunk.toClaudeEvent? = choice.finishReason.map fun reason =>
      .messageDelta (some (Chat.stopReason (some reason))) none
        (chunk.usage.elim (.of 0 0) fun u => .of u.promptTokens u.completionTokens) := by
  simp only [Chat.Chunk.toClaudeEvent?, first, h.noCalls, silent, Option.bind_eq_bind,
    Option.bind_some, List.findSome?_nil]
  cases choice.finishReason with
  | none => rfl
  | some reason => cases chunk.usage <;> rfl

variable {p : PerChunk} {m : Merging}

/-- A relay that is not closed opens the message when the other one does. -/
theorem Matches.ensureMessage (h : Matches usage p m) (counted : Prop)
    (isOpen : p.closed = false) :
    Matches usage (PerChunk.ensureMessage p).1 (Merging.ensureMessage m).1 ∧
      List.Forall₂ (Event.Alike counted) (PerChunk.ensureMessage p).2
        (Merging.ensureMessage m).2 := by
  have hp := h.phase
  rw [isOpen, if_neg Bool.false_ne_true] at hp
  unfold PerChunk.ensureMessage Merging.ensureMessage
  cases hs : p.started with
  | true =>
    rw [hs, if_pos rfl] at hp
    rw [if_pos rfl, if_neg (by rw [hp]; decide)]
    exact ⟨h, .nil⟩
  | false =>
    rw [hs, if_neg Bool.false_ne_true] at hp
    rw [if_neg Bool.false_ne_true, if_pos hp]
    have hstart : Matches usage { p with started := true } { m with phase := .streaming } :=
      { h with phase := by simp [isOpen] }
    refine ⟨hstart, ?_⟩
    rw [h.model, h.promptTokens]
    exact .cons (.opening _ _ _ _) .nil

section Whole

variable [Tokenizer]

/-- A usage that counts the tokens of the answer is the one in the end. -/
theorem finalUsage_of_counted {m : Merging} {u : Chat.Usage} (h : m.lastUsage = some u)
    (counts : 0 < u.completionTokens) : m.finalUsage = .of u.promptTokens u.completionTokens := by
  simp only [Merging.finalUsage, h, if_pos counts]

/-- With no call waiting, the message is closed when the open block is stopped. -/
theorem closeMessage_of_queued_eq_nil {m : Merging} (h : m.queued = []) (reason : StopReason) :
    Merging.closeMessage reason m = Merging.stopBlock.seq (fun r =>
      ({ r with reported := some r.finalUsage, phase := .closed },
        [.messageDelta (some reason) none r.finalUsage, .messageStop])) m := by
  have hs : Merging.settle { m with phase := .finishing } =
      Merging.stopBlock { m with phase := .finishing } := Merging.settle_eq_stopBlock h
  have he : (Merging.stopBlock { m with phase := .finishing }).2 = (Merging.stopBlock m).2 := by
    unfold Merging.stopBlock
    cases m.openBlock <;> rfl
  simp only [Merging.closeMessage, Step.all_cons, Step.all_nil, Step.seq_emit_nil, Step.seq_apply,
    Step.silent, hs, he, Merging.stopBlock_fst, List.nil_append]
  rfl

/-- Both relays close the message. The one reports the usage `closing`, the other the usage
it was told last, if that counts the tokens of the answer. -/
theorem simulates_closeMessage (reason : StopReason) {closing : Claude.Usage}
    (equal : counted → ∃ u, usage = some u ∧ 0 < u.completionTokens ∧
      closing = .of u.promptTokens u.completionTokens) :
    Simulates counted usage (PerChunk.closeMessage (some reason) none closing)
      (Merging.closeMessage reason) := by
  intro p m h
  rw [closeMessage_of_queued_eq_nil h.queued]
  refine simulates_stopBlock.seq (fun p m h => ?_) p m h
  have hu : counted → closing = m.finalUsage := by
    intro hc
    obtain ⟨u, hu, hp, rfl⟩ := equal hc
    exact (finalUsage_of_counted (h.lastUsage.trans hu) hp).symm
  exact ⟨{ h with phase := rfl }, .cons (.closing _ _ hu) (.cons (.same _) .nil)⟩

/-! ## Actions -/

/-- What the first choice of a chunk brings. -/
theorem simulates_onChoice {chunk : Chat.Chunk} {choice : Chat.ChunkChoice}
    (first : chunk.choices.head? = some choice) (h : choice.IsToolless) :
    Simulates (Action.Counts (.accept chunk)) (chunk.usage.or usage)
      (Step.seq (PerChunk.onReasoning choice.delta)
        (Step.forSome chunk.toClaudeEvent? PerChunk.onEvent))
      (Merging.onChoice choice) := by
  have hm : Merging.onChoice choice =
      Step.seq (Step.seq (Step.forSome choice.delta.reasoningContent fun s =>
          Merging.onThinking (some s) none)
        (Step.forSome choice.delta.thinking fun t => Merging.onThinking t.content t.signature))
      (Step.seq (Step.forSome (Chat.nonEmpty? choice.delta.content) Merging.onText)
        (Step.forSome choice.finishReason fun reason =>
          Merging.closeMessage (Chat.stopReason (some reason)))) := by
    simp only [Merging.onChoice, h.noCalls, Merging.firstPieces, List.map_nil, Step.all_cons,
      Step.all_nil, Step.seq_emit_nil, Step.seq_assoc]
    rfl
  rw [hm]
  refine (simulates_onReasoning h).seq ?_
  cases hc : Chat.nonEmpty? choice.delta.content with
  | some s =>
    have hf : choice.finishReason = none := by simpa [hc] using h.textOrReason
    have he : chunk.toClaudeEvent? = some (.blockDelta 0 (.text s)) := by
      simp [Chat.Chunk.toClaudeEvent?, first, hc]
    simp only [he, hf, Step.forSome, Step.seq_emit_nil]
    exact simulates_text s
  | none =>
    rw [toClaudeEvent?_of_silent first h hc]
    cases choice.finishReason with
    | none => exact .seq (f := Step.emit []) (.emit []) (.emit [])
    | some reason =>
      refine simulates_closeMessage (Chat.stopReason (some reason)) ?_
      rintro ⟨u, hu, hp⟩
      exact ⟨u, by rw [hu, Option.some_or], hp, by rw [hu, Option.elim_some]⟩

/-- All that a chunk brings. -/
theorem simulates_choices {chunk : Chat.Chunk} (toolless : chunk.IsToolless) :
    Simulates (Action.Counts (.accept chunk)) (chunk.usage.or usage)
      (Step.seq (Step.forSome chunk.choices.head? fun choice => PerChunk.onReasoning choice.delta)
        (Step.forSome chunk.toClaudeEvent? PerChunk.onEvent))
      (Step.forSome chunk.choices.head? Merging.onChoice) := by
  cases hc : chunk.choices.head? with
  | none =>
    have he : chunk.toClaudeEvent? = none := by simp [Chat.Chunk.toClaudeEvent?, hc]
    rw [he]
    exact .emit []
  | some choice => exact simulates_onChoice hc (toolless choice hc)

variable {p : PerChunk} {m : Merging}

theorem Matches.accept (h : Matches usage p m) {chunk : Chat.Chunk} (toolless : chunk.IsToolless) :
    (∃ usage', Matches usage' (PerChunk.push chunk p).1 (Merging.push chunk m).1) ∧
      List.Forall₂ (Event.Alike (Action.Counts (.accept chunk))) (PerChunk.push chunk p).2
        (Merging.push chunk m).2 := by
  have hp := h.phase
  cases hc : p.closed with
  | true =>
    rw [hc, if_pos rfl] at hp
    rw [PerChunk.push, Merging.push, if_pos hc, if_pos hp]
    exact ⟨⟨usage, h⟩, .nil⟩
  | false =>
    have isOpen : m.phase ≠ .closed := by
      rw [hp, hc]
      cases p.started <;> decide
    obtain ⟨hm, he⟩ := h.ensureMessage (Action.Counts (.accept chunk)) hc
    -- The merging relay notes the usage before it looks at the choice.
    have hr : Matches (chunk.usage.or usage) (PerChunk.ensureMessage p).1
        { (Merging.ensureMessage m).1 with
          lastUsage := chunk.usage.or (Merging.ensureMessage m).1.lastUsage } :=
      { hm with lastUsage := by rw [hm.lastUsage] }
    obtain ⟨hm', he'⟩ := simulates_choices toolless _ _ hr
    rw [PerChunk.push, Merging.push, if_neg (by rw [hc]; decide), if_neg isOpen]
    simp only [Step.all_cons, Step.all_nil, Step.seq_emit_nil]
    exact ⟨⟨_, hm'⟩, List.rel_append he he'⟩

theorem Matches.finish (h : Matches usage p m) :
    Matches usage (PerChunk.finish p).1 (Merging.finish m).1 ∧
      List.Forall₂ (Event.Alike False) (PerChunk.finish p).2 (Merging.finish m).2 := by
  have hp := h.phase
  cases hc : p.closed with
  | true =>
    rw [hc, if_pos rfl] at hp
    have hm : Merging.finish m = (m, []) := by simp only [Merging.finish, hp]
    rw [PerChunk.finish, if_pos hc, hm]
    exact ⟨h, .nil⟩
  | false =>
    obtain ⟨hm, he⟩ := h.ensureMessage False hc
    have closes : Simulates False usage (PerChunk.closeMessage (some .endTurn) none (.of 0 0))
        (Merging.closeMessage .endTurn) := simulates_closeMessage .endTurn False.elim
    obtain ⟨hm', he'⟩ := closes _ _ hm
    have hf : Merging.finish m =
        (Merging.ensureMessage.seq (Merging.closeMessage .endTurn)) m := by
      rw [hc, if_neg Bool.false_ne_true] at hp
      unfold Merging.finish Merging.ensureMessage
      cases hs : p.started with
      | true =>
        rw [hs, if_pos rfl] at hp
        simp [hp, Step.seq_apply]
      | false =>
        rw [hs, if_neg Bool.false_ne_true] at hp
        simp [hp, Step.seq_apply]
    rw [PerChunk.finish, if_neg (by rw [hc]; decide), hf]
    exact ⟨hm', List.rel_append he he'⟩

/-- Every action keeps the states matching and makes both emit alike events. -/
theorem Matches.step (h : Matches usage p m) (a : Action Chat.Chunk)
    (toolless : ∀ chunk, a = .accept chunk → chunk.IsToolless) :
    (∃ usage', Matches usage' (a.step p).1 (a.step m).1) ∧
      List.Forall₂ (Event.Alike a.Counts) (a.step p).2 (a.step m).2 := by
  cases a with
  | accept chunk => exact h.accept (toolless chunk rfl)
  | finish => exact ⟨⟨usage, h.finish.1⟩, h.finish.2⟩
  | close => exact ⟨⟨usage, { h with phase := rfl }⟩, .nil⟩

theorem Matches.run (h : Matches usage p m) (actions : List (Action Chat.Chunk))
    (toolless : ∀ chunk, .accept chunk ∈ actions → chunk.IsToolless) :
    ∃ usage', Matches usage' (run actions p).1 (run actions m).1 := by
  induction actions generalizing usage p m with
  | nil => exact ⟨usage, h⟩
  | cons a actions ih =>
    obtain ⟨⟨usage', hs⟩, -⟩ := h.step a fun chunk ha => toolless chunk (ha ▸ List.mem_cons_self)
    exact ih hs fun chunk hc => toolless chunk (List.mem_cons_of_mem a hc)

/-- Whatever was done before to a fresh relay of either kind, the next action makes both
emit the same events, up to the id of the message and the usage at its end. The usage is
the same, too, if the chunk that ends the message counts the tokens of the answer. This
holds as long as the chunks bring no pieces of calls, nor text along with a finish reason,
nor reasoning in both of its places. -/
theorem alike_of_toolless (model : String) (promptTokens : Nat) (now now' : Instant)
    (past : List (Action Chat.Chunk)) (next : Action Chat.Chunk)
    (toolless : ∀ chunk, .accept chunk ∈ past ++ [next] → chunk.IsToolless) :
    List.Forall₂ (Event.Alike next.Counts)
      (next.step (run past (PerChunk.start model promptTokens now)).1).2
      (next.step (run past (Merging.start model promptTokens now')).1).2 := by
  obtain ⟨usage, h⟩ := (matches_start model promptTokens now now').run past fun chunk hc =>
    toolless chunk (List.mem_append_left _ hc)
  refine (h.step next fun chunk hn => toolless chunk ?_).2
  rw [hn]
  exact List.mem_append_right _ List.mem_cons_self

end Whole

/-- A chunk whose only choice has the given delta. -/
def deltaChunk (delta : Chat.Delta) (reason : Option Chat.FinishReason)
    (usage : Option Chat.Usage) : Chat.Chunk :=
  ⟨"", "", 0, "", [⟨0, delta, reason⟩], usage⟩

/-- Reasoning with its signature in the other place, then text. -/
def sealedThenSpoken : List (Action Chat.Chunk) :=
  [.accept (deltaChunk { Chat.Delta.empty with
      reasoningContent := some "Hm.", thinking := some ⟨none, some "seal"⟩ } none none),
    .accept (deltaChunk { Chat.Delta.empty with content := some "Yes." } none none)]

/-- Why the answer stopped, and the tokens that it took. -/
def countedStop : Action Chat.Chunk :=
  .accept (deltaChunk Chat.Delta.empty (some .stop) (some (.of 5 3)))

theorem alike_sealedThenSpoken :
    List.Forall₂ (Event.Alike countedStop.Counts)
        (countedStop.step (run sealedThenSpoken (PerChunk.start "m" 1 ⟨0⟩)).1).2
        (countedStop.step (run sealedThenSpoken (Merging.start "m" 1 ⟨7⟩)).1).2 ∧
      countedStop.Counts ∧
      (countedStop.step (run sealedThenSpoken (PerChunk.start "m" 1 ⟨0⟩)).1).2 =
        [.blockStop 1, .messageDelta (some .endTurn) none (.of 5 3), .messageStop] := by
  refine ⟨alike_of_toolless "m" 1 ⟨0⟩ ⟨7⟩ sealedThenSpoken countedStop fun chunk hc => ?_,
    ⟨.of 5 3, rfl, by decide⟩, by decide⟩
  simp only [sealedThenSpoken, countedStop, List.cons_append, List.nil_append, List.mem_cons,
    Action.accept.injEq, List.not_mem_nil, or_false] at hc
  rcases hc with rfl | rfl | rfl <;> decide

end Relay

end Switchboard
