import Switchboard.Conversion.GeminiToChat
import Switchboard.Proofs.Merging.Interleaving
import Switchboard.Proofs.Merging.Whole

/-!
# Gemini's answers, streamed and whole

Gemini streams an answer as events, each with some of its parts; it may cut the list of
parts anywhere, and the reason why it stopped and the usage come with the last event
(`Response.IsCut`). Every event is made a chunk, and the chunks are relayed. What a client
reassembles has the text, the tool uses, the reason to stop and the tokens of the whole
answer translated at once (`Response.IsCut.streamed_agrees`), up to the notice that an
answer was cut off before its first word, which a stream does not give.

The calls of an answer come whole, and their numbers go on from event to event
(`pieces_mapAll`). What is asked of a call is that its function has a name : for one
without a name the relay makes one up, and the translation does not
(`streamed_disagrees_nameless`).
-/

namespace Switchboard.Gemini

open Relay (Merging)
open Relay.Merging (Brings Input callDeltas chunkInputs ending finishReason? heard inputs pieces
  wholePiece wholePieces)

/-! ## An answer in events -/

namespace Response

/-- The parts of the first candidate. -/
def parts (r : Response) : List Part := (r.candidates.head?.map Candidate.parts).getD []

/-- Why the first candidate ended, if it has. -/
def finishReason? (r : Response) : Option String := r.candidates.head?.bind (·.finishReason)

/-- The text that is no reasoning. -/
def text (r : Response) : String := String.join (r.parts.filterMap (Part.textIf false))

/-- The calls of the first candidate. -/
def calls (r : Response) : List FunctionCall := r.parts.filterMap (·.functionCall)

/-- Events that bring an answer : its parts in order, and at the end its finish reason and
its usage. What the other events say of usage does not count. -/
structure IsCut (whole : Response) (events : List Response) : Prop where
  parts : events.flatMap Response.parts = whole.parts
  ends : ∃ first last, events = first ++ [last] ∧ (∀ e ∈ first, e.finishReason? = none) ∧
    last.finishReason? = whole.finishReason? ∧ last.usageMetadata = whole.usageMetadata
  finished : whole.finishReason?.isSome = true

variable {whole : Response} {events : List Response}

theorem IsCut.calls (h : whole.IsCut events) : events.flatMap Response.calls = whole.calls := by
  rw [Response.calls, ← h.parts, List.filterMap_flatMap]
  rfl

theorem IsCut.text (h : whole.IsCut events) :
    String.join (events.map Response.text) = whole.text := by
  rw [Response.text, ← h.parts]
  clear h
  induction events with
  | nil => rfl
  | cons e events ih =>
    rw [List.map_cons, String.join_cons, ih, List.flatMap_cons, List.filterMap_append,
      String.join_append]
    rfl

end Response

/-! ## Numbered calls -/

/-- A call with its number and its id, as one of a chat completion. -/
def toToolCall (n : Nat × String × FunctionCall) : Chat.ToolCall :=
  ⟨n.2.1, n.2.2.name, n.2.2.args.render⟩

/-- Numbering goes on behind what was numbered. -/
theorem numberCalls_append (first : Nat) (xs ys : List FunctionCall) :
    numberCalls first (xs ++ ys) = numberCalls first xs ++ numberCalls (first + xs.length) ys := by
  simp [numberCalls, List.zipIdx_append]

theorem map_fst_numberCalls (first : Nat) (calls : List FunctionCall) :
    (numberCalls first calls).map (·.1) = List.range' first calls.length := by
  rw [numberCalls, List.map_map]
  exact List.zipIdx_map_snd first calls

theorem exists_of_mem_numberCalls {first : Nat} {calls : List FunctionCall}
    {n : Nat × String × FunctionCall} (h : n ∈ numberCalls first calls) :
    ∃ call ∈ calls, ∃ i, n = (i, callId call.name i, call) := by
  obtain ⟨⟨call, i⟩, hi, rfl⟩ := List.mem_map.mp h
  exact ⟨call, List.fst_mem_of_mem_zipIdx hi, i, rfl⟩

/-- Numbered from zero, the calls of an answer come whole. -/
theorem wholePieces_numberCalls (calls : List FunctionCall) :
    wholePieces ((numberCalls 0 calls).map toToolCall) =
      (numberCalls 0 calls).map fun n => wholePiece n.1 (toToolCall n) :=
  List.ext_getElem (by simp [wholePieces]) (by simp [wholePieces, numberCalls])

/-! ## The chunk of an event -/

namespace ChunkMapper

variable (m : ChunkMapper) (e : Response) (now : Instant)

theorem map_snd : (m.map e now).2 = { m with nextCall := m.nextCall + e.calls.length } := by
  unfold map
  cases h : e.candidates with
  | nil => simp [Response.calls, Response.parts, h]
  | cons c rest => simp [Response.calls, Response.parts, h, choice, Candidate.calls]

theorem finishReason?_map : finishReason? (m.map e now).1 =
    e.finishReason?.map fun reason =>
      Gemini.finishReason reason (decide (0 < m.nextCall + e.calls.length)) := by
  unfold map
  cases h : e.candidates with
  | nil => simp [Response.finishReason?, h, finishReason?]
  | cons c rest =>
    have hc : e.calls = c.calls := by simp [Response.calls, Response.parts, h, Candidate.calls]
    have hp : (!c.calls.isEmpty || decide (0 < m.nextCall + c.calls.length)) =
        decide (0 < m.nextCall + c.calls.length) := by
      cases c.calls with
      | nil => rfl
      | cons call calls =>
        rw [decide_eq_true (by rw [List.length_cons]; omega), Bool.or_true]
    simp only [finishReason?, Response.finishReason?, h, hc, List.head?_cons, Option.bind_some,
      choice, hp]

theorem usage_map : (m.map e now).1.usage =
    if e.finishReason?.isSome then e.usageMetadata.map UsageMetadata.toChat else none := by
  unfold map
  cases h : e.candidates with
  | nil => simp [Response.finishReason?, h]
  | cons c rest => simp [Response.finishReason?, h, choice]

theorem callDeltas_map : callDeltas (m.map e now).1 =
    (numberCalls m.nextCall e.calls).map fun n => wholePiece n.1 (toToolCall n) := by
  unfold map
  cases h : e.candidates with
  | nil => simp [Response.calls, Response.parts, h, callDeltas, numberCalls]
  | cons c rest =>
    have hc : e.calls = c.calls := by simp [Response.calls, Response.parts, h, Candidate.calls]
    simp only [callDeltas, hc, choice, List.head?_cons, Option.toList_some, List.flatMap_singleton]
    cases c.calls <;> rfl

theorem text_map :
    String.join ((chunkInputs (m.map e now).1).filterMap Input.text?) = e.text := by
  rw [Relay.Merging.texts_chunkInputs]
  unfold map
  cases h : e.candidates with
  | nil => simp [Response.text, Response.parts, h]
  | cons c rest =>
    have ht : e.text = c.text := by simp [Response.text, Response.parts, h, Candidate.text]
    simp only [choice, List.head?_cons, Option.bind_some, ht]
    by_cases he : c.text = ""
    · simp [he, Chat.nonEmpty?]
    · rw [if_neg (by simpa using he), Relay.Merging.nonEmpty?_of_ne he]
      simp

theorem pieces_map : pieces (chunkInputs (m.map e now).1) =
    (numberCalls m.nextCall e.calls).map fun n => wholePiece n.1 (toToolCall n) := by
  rw [Relay.Merging.pieces_chunkInputs, callDeltas_map]
  refine Relay.Merging.firstPieces_of_nodup ?_ fun _ _ => List.not_mem_nil
  rw [List.map_map]
  show ((numberCalls m.nextCall e.calls).map (·.1)).Nodup
  rw [map_fst_numberCalls]
  exact List.nodup_range'

/-! ## The chunks of a stream -/

variable {m e now}

/-- The last event is made a chunk with the calls of the others counted. -/
theorem mapAll_concat (m : ChunkMapper) (now : Instant) (events : List Response)
    (last : Response) :
    m.mapAll now (events ++ [last]) = m.mapAll now events ++
      [(map { m with nextCall := m.nextCall + (events.flatMap Response.calls).length }
        last now).1] := by
  induction events generalizing m with
  | nil => rfl
  | cons e events ih =>
    simp only [List.cons_append, mapAll, map_snd, ih, List.flatMap_cons, List.length_append,
      Nat.add_assoc]

theorem exists_of_mem_mapAll {m : ChunkMapper} {events : List Response} {chunk : Chat.Chunk}
    (h : chunk ∈ m.mapAll now events) :
    ∃ e ∈ events, ∃ m' : ChunkMapper, chunk = (m'.map e now).1 := by
  induction events generalizing m with
  | nil => cases h
  | cons e events ih =>
    rcases List.mem_cons.mp h with rfl | h
    · exact ⟨e, List.mem_cons_self, m, rfl⟩
    · obtain ⟨e', he, hm⟩ := ih h
      exact ⟨e', List.mem_cons_of_mem e he, hm⟩

theorem pieces_mapAll (m : ChunkMapper) (now : Instant) (events : List Response) :
    pieces ((m.mapAll now events).flatMap chunkInputs) =
      (numberCalls m.nextCall (events.flatMap Response.calls)).map
        fun n => wholePiece n.1 (toToolCall n) := by
  induction events generalizing m with
  | nil => rfl
  | cons e events ih =>
    rw [mapAll, List.flatMap_cons, Relay.Merging.pieces_append, pieces_map, ih, map_snd,
      List.flatMap_cons, numberCalls_append, List.map_append]

theorem text_mapAll (m : ChunkMapper) (now : Instant) (events : List Response) :
    String.join (((m.mapAll now events).flatMap chunkInputs).filterMap Input.text?) =
      String.join (events.map Response.text) := by
  induction events generalizing m with
  | nil => rfl
  | cons e events ih =>
    rw [mapAll, List.flatMap_cons, List.filterMap_append, String.join_append, text_map, ih,
      List.map_cons, String.join_cons]

end ChunkMapper

/-! ## Streamed and whole -/

theorem finishReason_eq_length_iff {reason : String} {hasCalls : Bool} :
    finishReason reason hasCalls = .length ↔ reason = "MAX_TOKENS" ∧ hasCalls = false := by
  unfold finishReason
  split_ifs with hc hm <;> simp_all

namespace Response

variable {whole : Response} {events : List Response}

/-- What the whole answer amounts to as a chat completion. -/
theorem isPlain_toChat {reason : String} (finished : whole.finishReason? = some reason)
    (named : ∀ call ∈ whole.calls, call.name ≠ "")
    (readBack : ∀ call ∈ whole.calls, Json.parseSorted? call.args.render = some call.args)
    (model : String) (now : Instant) :
    (whole.toChat model now).IsPlain whole.text ((numberCalls 0 whole.calls).map toToolCall)
      (Gemini.finishReason reason (!whole.calls.isEmpty)) := by
  obtain ⟨c, hc, hr⟩ := Option.bind_eq_some_iff.mp finished
  obtain ⟨rest, hw⟩ := List.head?_eq_some_iff.mp hc
  have hp : whole.parts = c.parts := by rw [parts, hw]; rfl
  have ht : whole.text = c.text := by rw [text, hp]; rfl
  have hk : whole.calls = c.calls := by rw [calls, hp]; rfl
  have mem : ∀ t ∈ (numberCalls 0 whole.calls).map toToolCall, ∃ call ∈ whole.calls, ∃ i,
      t = ⟨callId call.name i, call.name, call.args.render⟩ := by
    intro t ht
    obtain ⟨n, hn, rfl⟩ := List.mem_map.mp ht
    obtain ⟨call, hm, i, rfl⟩ := exists_of_mem_numberCalls hn
    exact ⟨call, hm, i, rfl⟩
  refine ⟨⟨c.toChoice, by rw [toChat, hw]; rfl, ?_, ?_, ?_⟩, fun t ht => ?_, fun t ht => ?_⟩
  · rw [ht]
    by_cases he : c.text = ""
    · cases hn : c.calls with
      | nil => exact .inl (by simp [Candidate.toChoice, hn])
      | cons call calls => exact .inr ⟨by simp [Candidate.toChoice, he, hn], he⟩
    · exact .inl (by simp [Candidate.toChoice, he])
  · rw [hk]
    cases hc : c.calls <;> simp [Candidate.toChoice, hc, toToolCall, numberCalls]
  · rw [hk]
    simp [Candidate.toChoice, hr]
  · obtain ⟨call, hm, i, rfl⟩ := mem t ht
    exact ⟨by simp [callId], named call hm⟩
  · obtain ⟨call, hm, i, rfl⟩ := mem t ht
    obtain ⟨v, hv, -⟩ := Option.map_eq_some_iff.mp (readBack call hm)
    exact Option.isSome_iff_exists.mpr ⟨v, hv⟩

/-- Only the last chunk of an answer in events says that the answer is finished and what
it used, and it says what the whole answer does. -/
theorem IsCut.exists_chunks {reason : String} (cut : whole.IsCut events)
    (finished : whole.finishReason? = some reason) (model : String) (now : Instant) :
    ∃ chunks last, (ChunkMapper.start model).mapAll now events = chunks ++ [last] ∧
      (∀ chunk ∈ chunks, Relay.Merging.finishReason? chunk = none ∧ chunk.usage = none) ∧
      Relay.Merging.finishReason? last =
        some (Gemini.finishReason reason (!whole.calls.isEmpty)) ∧
      last.usage = whole.usageMetadata.map UsageMetadata.toChat := by
  obtain ⟨first, last, rfl, goesOn, stops, reports⟩ := cut.ends
  refine ⟨_, _, ChunkMapper.mapAll_concat _ now first last, fun chunk hc => ?_, ?_, ?_⟩
  · obtain ⟨e, he, m, rfl⟩ := ChunkMapper.exists_of_mem_mapAll hc
    rw [ChunkMapper.finishReason?_map, ChunkMapper.usage_map, goesOn e he]
    exact ⟨rfl, rfl⟩
  · have count : (first.flatMap Response.calls).length + last.calls.length =
        whole.calls.length := by
      rw [← cut.calls, List.flatMap_append, List.length_append, List.flatMap_singleton]
    rw [ChunkMapper.finishReason?_map, stops, finished, ChunkMapper.start, Nat.zero_add, count]
    cases whole.calls <;> rfl
  · rw [ChunkMapper.usage_map, stops, finished, reports]
    rfl

theorem IsCut.brings {reason : String} (cut : whole.IsCut events)
    (finished : whole.finishReason? = some reason) (model : String) (streamed now : Instant) :
    Brings (((ChunkMapper.start model).mapAll streamed events).map .accept) whole.text
      ((numberCalls 0 whole.calls).map toToolCall)
      (Gemini.finishReason reason (!whole.calls.isEmpty)) (whole.toChat model now).usage := by
  obtain ⟨chunks, last, hc, unfinished, stop, reports⟩ :=
    cut.exists_chunks finished model streamed
  obtain ⟨hh, he⟩ :=
    Relay.Merging.heard_accept_concat (fun chunk hc => (unfinished chunk hc).1) stop
  rw [← hc] at hh he
  refine ⟨?_, ?_, he, ?_⟩
  · rw [inputs, hh, ChunkMapper.text_mapAll, cut.text]
  · rw [inputs, hh, ChunkMapper.pieces_mapAll, cut.calls, wholePieces_numberCalls]
    rfl
  · have silent : chunks.filterMap (·.usage) = [] :=
      List.filterMap_eq_nil_iff.mpr fun chunk hc => (unfinished chunk hc).2
    rw [inputs, hh, Relay.Merging.usage?_chunkInputs, hc, List.filterMap_append, silent,
      List.nil_append, List.filterMap_cons, reports, toChat]
    cases whole.usageMetadata <;> rfl

variable [Tokenizer]

/-- An answer whose calls have names, streamed in events however they are cut, relayed and
reassembled, has the text of the answer, its calls as tool uses in order, and the reason to
stop and the tokens of the answer translated at once. The translation has the same text and
the same tool uses, unless the answer was cut off before its first word, which it says. -/
theorem IsCut.streamed_agrees (cut : whole.IsCut events)
    (named : ∀ call ∈ whole.calls, call.name ≠ "")
    (readBack : ∀ call ∈ whole.calls, Json.parseSorted? call.args.render = some call.args)
    (model requested : String) (promptTokens : Nat) (now streamed opened : Instant) :
    let answer := (whole.toChat model now).toClaude
    let chunks := (ChunkMapper.start model).mapAll streamed events
    let emitted := (Relay.run (chunks.map .accept) (Merging.start requested promptTokens opened)).2
    ∃ reply, Claude.reassemble? emitted = some reply ∧
      Claude.textOf reply.content = whole.text ∧
      Claude.textOf answer.content =
        (if whole.finishReason? = some "MAX_TOKENS" ∧ whole.text = "" ∧ whole.calls = [] then
          Chat.truncationNotice else whole.text) ∧
      Claude.toolUses reply.content = (numberCalls 0 whole.calls).map
        (fun (_, id, call) => .toolUse id call.name call.args) ∧
      Claude.toolUses answer.content = Claude.toolUses reply.content ∧
      reply.stopReason = answer.stopReason ∧
      reply.usage.outputTokens = answer.usage.outputTokens := by
  intro answer chunks emitted
  obtain ⟨reason, finished⟩ := Option.isSome_iff_exists.mp cut.finished
  have plain := isPlain_toChat finished named readBack model now
  obtain ⟨content, hr, ht, hu⟩ :=
    (cut.brings finished model streamed now).exists_reply requested promptTokens opened plain
  refine ⟨_, hr, ht, ?_, hu.trans ?_, ?_, rfl, rfl⟩
  · have hl : (finishReason reason (!whole.calls.isEmpty) = .length ∧ whole.text = "") ↔
        (whole.finishReason? = some "MAX_TOKENS" ∧ whole.text = "" ∧ whole.calls = []) := by
      simp only [finishReason_eq_length_iff, finished, Option.some_inj, Bool.not_eq_false',
        List.isEmpty_iff, and_assoc, and_comm]
    exact (Relay.Merging.textOf_toClaude plain).trans (by simp only [hl])
  · rw [List.map_map]
    refine List.map_congr_left fun n hn => ?_
    obtain ⟨call, hm, i, rfl⟩ := exists_of_mem_numberCalls hn
    obtain ⟨v, hv, hs⟩ := Option.map_eq_some_iff.mp (readBack call hm)
    show Claude.Block.toolUse _ _ (Chat.parseArguments call.args.render) = _
    rw [Relay.Merging.parseArguments_of_parse? hv, hs]
    rfl
  · exact (Relay.Merging.toolUses_toClaude plain).trans hu.symm

end Response

/-! ## Examples -/

/-- An event with the given parts. -/
def eventOf (parts : List Part) (reason : Option String) (usage : Option UsageMetadata) :
    Response :=
  ⟨[⟨some ⟨some "model", parts⟩, reason, 0⟩], usage, none, none⟩

/-- Reasoning, a text, a call without arguments, a text and a call with some. -/
def talkative : Response :=
  eventOf [{ Part.ofText "Hm." with thought := some true }, Part.ofText "First ",
      Part.ofCall ⟨"f", .null⟩, Part.ofText "then.",
      Part.ofCall ⟨"g", .object [("x", .array [.nat 1])]⟩]
    (some "STOP") (some ⟨3, 0, 3⟩)

/-- The same in three events, one of which brings nothing. -/
def talkativeEvents : List Response :=
  [eventOf (talkative.parts.take 3) none none, eventOf [] none (some ⟨3, 1, 4⟩),
    eventOf (talkative.parts.drop 3) (some "STOP") (some ⟨3, 0, 3⟩)]

theorem streamed_agrees_talkative :
    talkative.IsCut talkativeEvents ∧ ∃ reply,
      Claude.reassemble? (Relay.run
          (((ChunkMapper.start "m").mapAll ⟨0⟩ talkativeEvents).map .accept)
          (Merging.start "m" 1 ⟨0⟩)).2 = some reply ∧
        Claude.textOf reply.content = "First then." ∧
        Claude.toolUses reply.content = [.toolUse "call_f_0" "f" .null,
          .toolUse "call_g_1" "g" (.object [("x", .array [.nat 1])])] := by
  have cut : talkative.IsCut talkativeEvents :=
    ⟨rfl, ⟨talkativeEvents.take 2, talkativeEvents[2], rfl, by decide, rfl, rfl⟩, rfl⟩
  obtain ⟨reply, hr, ht, -, hu, -⟩ :=
    cut.streamed_agrees (by decide) (by decide +kernel) "m" "m" 1 ⟨0⟩ ⟨0⟩ ⟨0⟩
  exact ⟨cut, reply, hr, ht.trans (by decide +kernel), hu.trans (by decide +kernel)⟩

/-- An answer with a call of a function that has no name. -/
def nameless : Response :=
  eventOf [Part.ofCall ⟨"", .object []⟩] (some "STOP") (some ⟨1, 2, 3⟩)

/-- The relay makes up a name, the translation leaves it as it is. -/
theorem streamed_disagrees_nameless :
    nameless.IsCut [nameless] ∧
      (∀ call ∈ nameless.calls, Json.parseSorted? call.args.render = some call.args) ∧
      ((Claude.reassemble? (Relay.run
          (((ChunkMapper.start "m").mapAll ⟨0⟩ [nameless]).map .accept)
          (Merging.start "m" 1 ⟨0⟩)).2).map fun reply => Claude.toolUses reply.content) =
        some [.toolUse "call__0" "tool_0" (.object [])] ∧
      Claude.toolUses (nameless.toChat "m" ⟨0⟩).toClaude.content =
        [.toolUse "call__0" "" (.object [])] :=
  ⟨⟨rfl, ⟨[], nameless, rfl, by decide, rfl, rfl⟩, rfl⟩, by decide +kernel, by decide +kernel,
    by decide +kernel⟩

end Switchboard.Gemini
