import Switchboard.Proofs.Merging.Arrival
import Switchboard.Proofs.Merging.Delivered
import Switchboard.Proofs.Message.Content

/-!
# A streamed answer says what the finished one says

An answer may come as one response, or in pieces : its text, then its calls, the pieces of
which may be interleaved, then the reason why it stopped (`Rendering`). Translated at
once or relayed piece by piece and reassembled, it says the same
(`run_start_reassembles`).

The text makes one block (`Spoken`), the calls one each (`Drawn`). What the block of a
call holds may be a front of its arguments, but then it is a whole object, and only
blanks can follow it.
-/

namespace Switchboard

/-! ## An answer in pieces -/

namespace Chat

/-- A response with one choice, which is plain text and calls whose arguments can be
parsed. -/
structure Response.IsPlain (r : Response) (text : String) (calls : List ToolCall)
    (reason : FinishReason) : Prop where
  choice : ∃ c, r.choices = [c] ∧
    (c.message.content = some (.text text) ∨ c.message.content = none ∧ text = "") ∧
    c.message.toolCalls.getD [] = calls ∧ c.finishReason = some reason
  named : ∀ c ∈ calls, c.id ≠ "" ∧ c.name ≠ ""
  parsed : ∀ c ∈ calls, (Json.parse? c.arguments).isSome = true

theorem textContent_of_content {m : Message} {text : String}
    (h : m.content = some (.text text) ∨ m.content = none ∧ text = "") : m.textContent = text := by
  rcases h with h | ⟨h, rfl⟩ <;> simp [Message.textContent, h, Content.texts]

namespace Response.IsPlain

variable [Tokenizer]
variable {r : Response} {text : String} {calls : List ToolCall} {reason : FinishReason}

/-- What such a response says; if it was cut off before its first word, it says so. -/
theorem blocks_toClaude (h : r.IsPlain text calls reason) :
    r.toClaude.content =
      (if reason = .length ∧ text = "" then [.plain truncationNotice]
        else if text = "" then [] else [.plain text]) ++ calls.map ToolCall.toBlock := by
  obtain ⟨c, hc, ht, hk, hf⟩ := h.choice
  have hn : (c.finishReason = some .length ∧ c.message.textContent.isEmpty = true) ↔
      (reason = .length ∧ text = "") := by
    rw [hf, textContent_of_content ht, Option.some_inj, String.isEmpty_iff]
  simp only [Response.toClaude, hc, List.head?_cons, Option.map_some, Option.getD_some,
    Choice.blocks, hn, hk]
  rcases ht with ht | ⟨ht, rfl⟩
  · simp [ht, Content.textBlocks]
  · simp [ht]

/-- What such a response says, unless it was cut off before its first word. -/
theorem content_toClaude (h : r.IsPlain text calls reason)
    (said : ¬ (reason = .length ∧ text = "")) :
    r.toClaude.content =
      (if text = "" then [] else [.plain text]) ++ calls.map ToolCall.toBlock := by
  rw [h.blocks_toClaude, if_neg said]

theorem stopReason_toClaude (h : r.IsPlain text calls reason) :
    r.toClaude.stopReason = some (stopReason (some reason)) := by
  obtain ⟨c, hc, -, -, hf⟩ := h.choice
  simp only [Response.toClaude, hc, List.head?_cons, Option.bind_some, hf]

theorem tokens (h : r.IsPlain text calls reason) : Tokens.ofResponse r =
    Tokens.estimateAll (calls.map fun c => Tokens.callText c.name c.arguments) +
      Tokens.estimate text := by
  obtain ⟨c, hc, ht, hk, -⟩ := h.choice
  simp [Tokens.ofResponse, hc, textContent_of_content ht, Tokens.messageCalls, hk]

theorem outputTokens_toClaude (h : r.IsPlain text calls reason) :
    r.toClaude.usage.outputTokens = r.outputTokens := by
  obtain ⟨c, hc, -⟩ := h.choice
  simp [Response.toClaude, hc, Claude.Usage.of]

end Response.IsPlain

end Chat

namespace Relay.Merging

open Claude (Event Block Draft Reply StopReason noteAll closing? reassemble?)

/-- Chunks that bring an answer in pieces. Of its calls, the `k`-th one has the index `k`;
the first piece of it has its id and its name. Of several pieces for one index in one
chunk only the first counts. -/
structure Rendering (text : String) (calls : List Chat.ToolCall) (reason : Chat.FinishReason)
    (usage : Option Chat.Usage) where
  chunks : List Chat.Chunk
  last : Chat.Chunk
  fragments : List String
  deltas : List Chat.ToolCallDelta
  parts : (chunks ++ [last]).flatMap chunkParts = fragments.map .text ++ deltas.map .piece
  joined : String.join fragments = text
  inOrder : indicesOf deltas = List.range calls.length
  names : ∀ k c, calls[k]? = some c → ∃ d, (deltas.filter fun d => d.index = k).head? = some d ∧
    d.id = some c.id ∧ d.name? = some c.name
  brings : ∀ k c, calls[k]? = some c →
    argumentsOf (deltas.filter fun d => d.index = k) = c.arguments
  goesOn : ∀ chunk ∈ chunks, finishReason? chunk = none ∧ chunk.usage = none
  stops : finishReason? last = some reason
  reports : last.usage = usage

/-- What is done to a relay with them. -/
def Rendering.actions {text : String} {calls : List Chat.ToolCall} {reason : Chat.FinishReason}
    {usage : Option Chat.Usage} (s : Rendering text calls reason usage) :
    List (Action Chat.Chunk) :=
  s.chunks.map .accept ++ [.accept s.last]

/-- The tokens of the prompt : those reported, or else the estimate. -/
def inputTokens (promptTokens : Nat) : Option Chat.Usage → Nat
  | some u => if 0 < u.completionTokens ∨ 0 < u.promptTokens then u.promptTokens else promptTokens
  | none => promptTokens

variable {r : Merging} {ds : List Draft}

/-! ## Text and usage -/

/-- The piece of text that an input is. -/
def Input.text? : Input → Option String
  | text s => some s
  | _ => none

/-- The usage that an input reports. -/
def Input.usage? : Input → Option Chat.Usage
  | report usage => usage
  | _ => none

/-- Whether an input is part of the answer, and no report on it. -/
def Input.isPart : Input → Bool
  | report _ => false
  | _ => true

theorem Input.learn_text (x : Input) (r : Merging) :
    (x.learn r).text = r.text ++ x.text?.getD "" := by
  cases x with
  | report usage | thinking content signature => exact String.append_empty.symm
  | text s => rfl
  | piece d =>
    by_cases known : d.index ∈ r.calls.indices
    · simp [learn, learnCall_of_known known, text?]
    · simp [learn, learnCall_of_new known, enqueue, addCall, text?]

theorem Input.learn_lastUsage (x : Input) (r : Merging) :
    (x.learn r).lastUsage = x.usage?.or r.lastUsage := by
  cases x with
  | report usage | thinking content signature | text s => rfl
  | piece d =>
    by_cases known : d.index ∈ r.calls.indices
    · simp [learn, learnCall_of_known known, usage?]
    · simp [learn, learnCall_of_new known, enqueue, addCall, usage?]

/-- The text that a relay keeps is that of its inputs. -/
theorem AtRest.feed_text (h : AtRest r) (xs : List Input) :
    (Merging.feed xs r).1.text = r.text ++ String.join (xs.filterMap Input.text?) := by
  induction xs generalizing r with
  | nil => exact String.append_empty.symm
  | cons x xs ih =>
    have hx : (x.take r).1.text = r.text ++ x.text?.getD "" := by
      rw [h.take_frame x, ← x.learn_text r]
    rw [feed_cons, Step.seq_apply, ih (h.take x), hx, List.filterMap_cons, String.append_assoc]
    cases x.text? <;> simp

/-- The usage that a relay keeps is the last one that was reported. -/
theorem AtRest.feed_lastUsage (h : AtRest r) (xs : List Input) :
    (Merging.feed xs r).1.lastUsage = (xs.filterMap Input.usage?).getLast?.or r.lastUsage := by
  induction xs generalizing r with
  | nil => rfl
  | cons x xs ih =>
    have hx : (x.take r).1.lastUsage = x.usage?.or r.lastUsage := by
      rw [h.take_frame x, ← x.learn_lastUsage r]
    rw [feed_cons, Step.seq_apply, ih (h.take x), hx, List.filterMap_cons]
    cases x.usage? with
    | none => simp
    | some u => cases hl : (xs.filterMap Input.usage?).getLast? <;> simp [List.getLast?_cons, hl]

/-! ## The block of text -/

/-- The drafts of an answer of which the pieces `said` of text have come. -/
def textDrafts (said : List String) : List Draft :=
  if said = [] then [] else [⟨.plain "", said.map .text⟩]

/-- Only text has come, and it makes one block. -/
structure Spoken (said : List String) (r : Merging) (ds : List Draft) : Prop where
  calls : r.calls = []
  queued : r.queued = []
  numbered : ds.length = r.nextIndex
  drafts : ds = textDrafts said
  isOpen : r.openBlock = if said = [] then none else some ⟨0, .text⟩

theorem Spoken.drawn {said : List String} (h : Spoken said r ds) :
    Drawn (textDrafts said) r ds := by
  have ho : r.openCall? = none := by
    rw [openCall?, h.isOpen]
    by_cases hs : said = [] <;> simp [hs]
  refine ⟨h.numbered, [], [], [], by simp [h.drafts], ?_, .nil, ?_⟩
  · rw [ho, h.calls, h.queued]
    rfl
  · rw [ho]
    exact .nil

theorem Spoken.onText {said : List String} (h : Spoken said r ds) (s : String) :
    Spoken (said ++ [s]) (onText s r).1 (noteAll ds (onText s r).2) := by
  obtain ⟨hc, hq, hn, rfl, ho⟩ := h
  by_cases hs : said = []
  · subst hs
    have ho : r.openBlock = none := ho
    have hn : 0 = r.nextIndex := hn
    have he : onText s r = ({ r with
        text := r.text ++ s, nextIndex := r.nextIndex + 1, openBlock := some ⟨r.nextIndex, .text⟩ },
        [.blockStart r.nextIndex (.plain ""), .blockDelta r.nextIndex (.text s)]) := by
      simp [Merging.onText, ensureBlock, settle, stopBlock, flush, startBlock, emitDelta, Step.seq,
        Step.emit, ho, hq]
    rw [he, ← hn]
    exact ⟨hc, hq, rfl, rfl, rfl⟩
  · rw [if_neg hs] at ho
    have he : onText s r = ({ r with text := r.text ++ s }, [.blockDelta 0 (.text s)]) := by
      simp [Merging.onText, ensureBlock, emitDelta, Step.seq, ho]
    have hd : noteAll (textDrafts said) [.blockDelta 0 (.text s)] = textDrafts (said ++ [s]) := by
      simp [textDrafts, hs, Claude.note, Draft.add]
    rw [he, hd]
    refine ⟨hc, hq, ?_, rfl, ?_⟩
    · rw [← hn]
      simp [textDrafts, hs]
    · simpa using ho

/-- Inputs of text alone. -/
theorem Spoken.feed {said : List String} (h : Spoken said r ds) (xs : List Input)
    (spoken : ∀ x ∈ xs, x.isPart = true → ∃ s, x = .text s) :
    Spoken (said ++ xs.filterMap Input.text?) (Merging.feed xs r).1
      (noteAll ds (Merging.feed xs r).2) := by
  induction xs generalizing r ds said with
  | nil => simpa [Step.emit] using h
  | cons x xs ih =>
    have hx : Spoken (said ++ x.text?.toList) (x.take r).1 (noteAll ds (x.take r).2) := by
      cases x with
      | report usage => simpa [Input.text?] using { h with }
      | text s => exact h.onText s
      | thinking content signature | piece d =>
        obtain ⟨s, hs⟩ := spoken _ List.mem_cons_self rfl
        cases hs
    have := ih hx fun y hy => spoken y (List.mem_cons_of_mem x hy)
    rw [feed_cons, Step.seq_apply, Claude.noteAll_append, List.filterMap_cons]
    cases ht : x.text? <;> simpa [ht] using this

/-! ## The blocks of calls -/

/-- Blank arguments need not be told apart : they are no JSON text. -/
theorem parseArguments_eq (s : String) : Chat.parseArguments s =
    ((Json.parse? s).map Json.sorted).getD (.object []) := by
  unfold Chat.parseArguments Json.parseSorted?
  split
  case isFalse => rfl
  case isTrue blank =>
    cases h : Json.parse? s with
    | none => rfl
    | some v => exact absurd (blank.symm.trans (Json.isBlankText_of_parse? h)) nofun

theorem parseArguments_of_parse? {s : String} {v : Json} (h : Json.parse? s = some v) :
    Chat.parseArguments s = v.sorted := by
  rw [parseArguments_eq, h, Option.map_some, Option.getD_some]

/-- A text that can be parsed is the input of a tool use as it is that of a call. -/
theorem inputValue?_of_parse? {s : String} {v : Json} (h : Json.parse? s = some v) :
    Claude.inputValue? s = some v.sorted := by
  have hs : s.isEmpty = false := by
    by_contra he
    rw [Bool.not_eq_false, String.isEmpty_iff] at he
    have := Json.isBlankText_of_parse? h
    rw [he] at this
    cases this
  simp [Claude.inputValue?, hs, Json.parseSorted?, h]

/-- The block of a call parses as all its arguments do. -/
theorem finish?_of_call {calls : Calls} {index : Nat} {d : Draft} {c : Call} {v : Json}
    (h : Whole calls index d ∨ Full calls index d) (hc : calls.lookup index = some c)
    (hp : Json.parse? c.arguments = some v) :
    d.finish? = some (.toolUse c.id c.name (Chat.parseArguments c.arguments)) := by
  have hd : d.block = .toolUse c.id c.name (.object []) ∧ Json.parse? d.json = some v := by
    rcases h with ⟨c', rest, hc', hn, ha, hw⟩ | ⟨c', hc', hn, ha⟩
    · obtain rfl := Option.some.inj (hc.symm.trans hc')
      rw [ha] at hp
      exact ⟨hn, Json.parse?_of_isWholeObject hw hp⟩
    · obtain rfl := Option.some.inj (hc.symm.trans hc')
      rw [ha] at hp
      exact ⟨hn, hp⟩
  rw [Draft.finish?_of_toolUse hd.1, inputValue?_of_parse? hd.2, parseArguments_of_parse? hp,
    Option.map_some]

/-- The calls of an answer, as a relay knows them in the end. -/
def Agrees (calls : Calls) (answer : List Chat.ToolCall) : Prop :=
  calls.indices = List.range answer.length ∧
    ∀ k c, answer[k]? = some c → calls.lookup k = some ⟨c.id, c.name, false, c.arguments⟩

/-- What holds of known calls by their indices holds of the calls of the answer, one after
another. -/
theorem Agrees.forall₂ {α : Type} {P : Call → α → Prop} {known : Calls}
    {answer : List Chat.ToolCall} {as : List α} (h : Agrees known answer)
    (ha : List.Forall₂ (fun index a => ∀ c, known.lookup index = some c → P c a) known.indices as) :
    List.Forall₂ (fun c a => P ⟨c.id, c.name, false, c.arguments⟩ a) answer as := by
  rw [h.1] at ha
  obtain ⟨hl, ha⟩ := List.forall₂_iff_get.mp ha
  rw [List.length_range] at hl
  refine List.forall₂_iff_get.mpr ⟨hl, fun k hk hk' => ?_⟩
  have hp := ha k (by rwa [List.length_range]) hk'
  simp only [List.get_eq_getElem, List.getElem_range] at hp ⊢
  exact hp _ (h.2 k answer[k] (List.getElem?_eq_getElem hk))

theorem Agrees.blocks {calls : Calls} {answer : List Chat.ToolCall} {drafts : List Draft}
    (h : Agrees calls answer) (parsed : ∀ c ∈ answer, (Json.parse? c.arguments).isSome = true)
    (hd : List.Forall₂ (fun index d => Whole calls index d ∨ Full calls index d) calls.indices
      drafts) :
    List.Forall₂ (fun d b => d.finish? = some b) drafts (answer.map Chat.ToolCall.toBlock) := by
  have hb := h.forall₂ (P := fun c d => ∀ v, Json.parse? c.arguments = some v →
      d.finish? = some (.toolUse c.id c.name (Chat.parseArguments c.arguments)))
    (hd.imp fun _ _ hx c hc v hv => finish?_of_call hx hc hv)
  refine (List.forall₂_map_left_iff.mpr (forall₂_imp_of_mem hb fun c hc d hx => ?_)).flip
  obtain ⟨v, hv⟩ := Option.isSome_iff_exists.mp (parsed c hc)
  exact hx v hv

/-- A function of the calls, read off one index after another. -/
theorem map_calls {α : Type} {calls : Calls} (h : calls.indices.Nodup) (f : Call → α) :
    calls.map (fun p => some (f p.2)) = calls.indices.map fun i => (calls.lookup i).map f := by
  induction calls with
  | nil => rfl
  | cons p calls ih =>
    obtain ⟨i, c⟩ := p
    obtain ⟨hi, h⟩ := List.nodup_cons.mp (h : (i :: Calls.indices calls).Nodup)
    rw [List.map_cons, ih h]
    show _ = (i :: Calls.indices calls).map _
    rw [List.map_cons, List.lookup_cons_self, Option.map_some, List.cons_inj_right]
    refine List.map_congr_left fun j hj => ?_
    have hne : (j == i) = false := by
      simp only [beq_eq_false_iff_ne]
      rintro rfl
      exact hi hj
    rw [List.lookup_cons, hne]

theorem Agrees.callTexts {calls : Calls} {answer : List Chat.ToolCall} (h : Agrees calls answer) :
    (calls.map fun p => Tokens.callText p.2.name p.2.arguments) =
      answer.map fun c => Tokens.callText c.name c.arguments := by
  have hm := map_calls (by rw [h.1]; exact List.nodup_range) fun c =>
    Tokens.callText c.name c.arguments
  refine (List.map_inj_right fun _ _ => Option.some.inj).mp ?_
  rw [List.map_map, List.map_map]
  refine hm.trans (List.ext_getElem (by simp [h.1]) fun k h₁ h₂ => ?_)
  have hk : k < answer.length := by simpa using h₂
  simp [h.1, h.2 k answer[k] (List.getElem?_eq_getElem hk)]

/-! ## The chunks of an answer -/

/-- Parts are no reports, and their texts are not empty. -/
theorem of_mem_chunkParts {chunk : Chat.Chunk} {x : Input} (h : x ∈ chunkParts chunk) :
    x.isPart = true ∧ x.usage? = none ∧ ∀ s, x = .text s → s ≠ "" := by
  obtain ⟨choice, -, h⟩ := List.mem_flatMap.mp h
  simp only [choiceInputs, List.mem_append, List.mem_map] at h
  obtain ((⟨s, -, rfl⟩ | ⟨t, -, rfl⟩) | ⟨s, hs, rfl⟩) | ⟨d, -, rfl⟩ := h
  · exact ⟨rfl, rfl, by simp⟩
  · exact ⟨rfl, rfl, by simp⟩
  · refine ⟨rfl, rfl, ?_⟩
    rintro _ ⟨⟩
    have := (Option.filter_eq_some_iff.mp (Option.mem_toList.mp hs)).2
    simpa [String.isEmpty_iff] using this
  · exact ⟨rfl, rfl, by simp⟩

theorem filter_chunkInputs (chunks : List Chat.Chunk) :
    (chunks.flatMap chunkInputs).filter Input.isPart = chunks.flatMap chunkParts := by
  rw [List.filter_flatMap]
  congr 1
  funext chunk
  rw [chunkInputs, List.filter_cons_of_neg (by simp [Input.isPart]), List.filter_eq_self]
  exact fun x hx => (of_mem_chunkParts hx).1

theorem usage?_chunkInputs (chunks : List Chat.Chunk) :
    (chunks.flatMap chunkInputs).filterMap Input.usage? = chunks.filterMap (·.usage) := by
  induction chunks with
  | nil => rfl
  | cons chunk chunks ih =>
    have hp : (chunkParts chunk).filterMap Input.usage? = [] :=
      List.filterMap_eq_nil_iff.mpr fun x hx => (of_mem_chunkParts hx).2.1
    rw [List.flatMap_cons, List.filterMap_append, ih, chunkInputs, List.filterMap_cons, hp,
      List.filterMap_cons]
    cases chunk.usage <;> rfl

/-- The text of a chunk is that of its first choice. -/
theorem texts_chunkInputs (chunk : Chat.Chunk) : (chunkInputs chunk).filterMap Input.text? =
    (chunk.choices.head?.bind fun c => Chat.nonEmpty? c.delta.content).toList := by
  rw [chunkInputs, List.filterMap_cons_none rfl, chunkParts]
  cases chunk.choices.head? with
  | none => rfl
  | some choice =>
    have hn {α : Type} {f : α → Input} (h : ∀ a, (f a).text? = none) (l : List α) :
        (l.map f).filterMap Input.text? = [] := by
      rw [List.filterMap_map]
      exact List.filterMap_eq_nil_iff.mpr fun a _ => h a
    have ht (l : List String) : (l.map Input.text).filterMap Input.text? = l := by
      rw [List.filterMap_map]
      exact List.filterMap_some
    simp only [Option.toList_some, List.flatMap_singleton, choiceInputs, List.filterMap_append,
      ht, Option.bind_some]
    rw [hn fun _ => rfl, hn fun _ => rfl, hn fun _ => rfl, List.nil_append, List.nil_append,
      List.append_nil]

/-- Only parts bring text and pieces of calls. -/
theorem filterMap_isPart {α : Type} (f : Input → Option α) (hf : ∀ u, f (.report u) = none)
    (xs : List Input) : (xs.filter Input.isPart).filterMap f = xs.filterMap f := by
  rw [List.filterMap_filter]
  refine List.filterMap_congr fun x _ => ?_
  cases x <;> simp [Input.isPart, hf]

/-- A stream is heard up to the first chunk with a finish reason. -/
theorem heard_accept_concat {chunks : List Chat.Chunk} {last : Chat.Chunk}
    {reason : Chat.FinishReason} (goesOn : ∀ chunk ∈ chunks, finishReason? chunk = none)
    (stops : finishReason? last = some reason) :
    heard ((chunks ++ [last]).map .accept) = chunks ++ [last] ∧
      ending ((chunks ++ [last]).map .accept) = .stopped (Chat.stopReason (some reason)) := by
  induction chunks with
  | nil => simp [heard, ending, stops]
  | cons chunk chunks ih =>
    obtain ⟨hh, he⟩ := ih fun c hc => goesOn c (List.mem_cons_of_mem chunk hc)
    simp only [List.cons_append, List.map_cons, heard, ending, goesOn chunk List.mem_cons_self]
    exact ⟨by simpa using hh, by simpa using he⟩

section Rendered

variable {text : String} {calls : List Chat.ToolCall} {reason : Chat.FinishReason}
  {usage : Option Chat.Usage} (s : Rendering text calls reason usage)

theorem Rendering.heard_actions : heard s.actions = s.chunks ++ [s.last] ∧
    ending s.actions = .stopped (Chat.stopReason (some reason)) := by
  have h := heard_accept_concat (fun chunk hc => (s.goesOn chunk hc).1) s.stops
  rwa [List.map_append] at h

/-- The inputs are texts, then pieces of calls, and reports of usage between them. -/
theorem Rendering.exists_inputs : ∃ spoken called, inputs s.actions = spoken ++ called ∧
    spoken.filter Input.isPart = s.fragments.map .text ∧
    called.filter Input.isPart = s.deltas.map .piece := by
  refine List.filter_eq_append_iff.mp ?_
  rw [inputs, s.heard_actions.1, filter_chunkInputs, s.parts]

theorem Rendering.pieces_inputs : pieces (inputs s.actions) = s.deltas := by
  rw [pieces, ← filterMap_isPart _ (fun _ => rfl), inputs, s.heard_actions.1, filter_chunkInputs,
    s.parts, List.filterMap_append, List.filterMap_map, List.filterMap_map]
  have hf : s.fragments.filterMap (Input.piece? ∘ Input.text) = [] :=
    List.filterMap_eq_nil_iff.mpr fun _ _ => rfl
  rw [hf]
  exact List.filterMap_some

theorem Rendering.texts_inputs : (inputs s.actions).filterMap Input.text? = s.fragments := by
  rw [← filterMap_isPart _ (fun _ => rfl), inputs, s.heard_actions.1, filter_chunkInputs,
    s.parts, List.filterMap_append, List.filterMap_map, List.filterMap_map]
  have hd : s.deltas.filterMap (Input.text? ∘ Input.piece) = [] :=
    List.filterMap_eq_nil_iff.mpr fun _ _ => rfl
  rw [hd, List.append_nil]
  exact List.filterMap_some

theorem Rendering.usage_inputs : (inputs s.actions).filterMap Input.usage? = usage.toList := by
  have hc : s.chunks.filterMap (·.usage) = [] :=
    List.filterMap_eq_nil_iff.mpr fun chunk h => (s.goesOn chunk h).2
  rw [inputs, s.heard_actions.1, usage?_chunkInputs, List.filterMap_append, hc, List.nil_append,
    List.filterMap_cons, s.reports]
  cases usage <;> rfl

/-- An answer without text has no piece of text. -/
theorem Rendering.fragments_eq_nil_iff : s.fragments = [] ↔ text = "" := by
  have he : ∀ f ∈ s.fragments, f ≠ "" := by
    intro f hf
    have hm : Input.text f ∈ (s.chunks ++ [s.last]).flatMap chunkParts := by
      rw [s.parts]
      exact List.mem_append_left _ (List.mem_map_of_mem hf)
    obtain ⟨chunk, -, hx⟩ := List.mem_flatMap.mp hm
    exact (of_mem_chunkParts hx).2.2 f rfl
  have hj := s.joined
  constructor
  · intro h
    rw [h, String.join_nil] at hj
    exact hj.symm
  · intro h
    cases hf : s.fragments with
    | nil => rfl
    | cons f fs =>
      rw [hf, String.join_cons, h] at hj
      exact absurd (String.append_eq_empty_iff.mp hj).1
        (he f (by rw [hf]; exact List.mem_cons_self))

theorem nonEmpty?_of_ne {t : String} (h : t ≠ "") : Chat.nonEmpty? (some t) = some t := by
  simp [Chat.nonEmpty?, h]

/-- The pieces of the `k`-th call, of which the first one has its id and its name. -/
theorem Rendering.head_piecesOf (named : ∀ c ∈ calls, c.id ≠ "" ∧ c.name ≠ "") {k : Nat}
    {c : Chat.ToolCall} (hk : calls[k]? = some c) : ∃ d rest,
    piecesOf k (inputs s.actions) = d :: rest ∧ nameplate? d = some (c.id, c.name) := by
  obtain ⟨d, hd, hi, hn⟩ := s.names k c hk
  obtain ⟨rest, hr⟩ := List.head?_eq_some_iff.mp hd
  obtain ⟨hci, hcn⟩ := named c (List.mem_of_getElem? hk)
  refine ⟨d, rest, ?_, ?_⟩
  · rw [piecesOf, s.pieces_inputs, hr]
  · rw [nameplate?, hi, hn, nonEmpty?_of_ne hci, nonEmpty?_of_ne hcn]

/-- Each first piece has an id and a name, since there are no pieces of other calls. -/
theorem Rendering.named_inputs (named : ∀ c ∈ calls, c.id ≠ "" ∧ c.name ≠ "") (index : Nat)
    (d : Chat.ToolCallDelta) (h : (piecesOf index (inputs s.actions)).head? = some d) :
    (nameplate? d).isSome = true := by
  have hm : index ∈ indicesOf s.deltas := by
    have hp : d ∈ piecesOf index (inputs s.actions) := List.mem_of_mem_head? h
    rw [piecesOf, s.pieces_inputs, List.mem_filter] at hp
    exact mem_indicesOf.mpr ⟨d, hp.1, by simpa using hp.2⟩
  rw [s.inOrder, List.mem_range] at hm
  obtain ⟨e, rest, he, hn⟩ := s.head_piecesOf named (List.getElem?_eq_getElem hm)
  rw [he, List.head?_cons] at h
  obtain rfl := Option.some.inj h
  rw [hn]
  rfl

/-- In the end the relay knows the calls of the answer. -/
theorem Rendering.agrees (named : ∀ c ∈ calls, c.id ≠ "" ∧ c.name ≠ "")
    (hk : Knows (inputs s.actions) r) : Agrees r.calls calls := by
  refine ⟨?_, fun k c hc => ?_⟩
  · rw [hk.arrived, s.pieces_inputs, s.inOrder]
  · obtain ⟨d, rest, hp, hn⟩ := s.head_piecesOf named hc
    have ha : argumentsOf (d :: rest) = c.arguments := by
      rw [← hp, piecesOf, s.pieces_inputs, s.brings k c hc]
    rw [hk.known, hp, callOf?, identity?, List.findSome?_cons, hn, ha]
    rfl

end Rendered

/-! ## The end of the message -/

theorem Move.closing?_eq_none {cut : Bool} {r' : Merging} {xs : List Event}
    (h : Move cut r xs r') : closing? xs = none := by
  cases h with
  | @call index c rest idle first known =>
    unfold callEvents
    split <;> rfl
  | _ => rfl

theorem Moves.closing?_eq_none {cut : Bool} {r' : Merging} {xs : List Event}
    (h : Moves cut r xs r') : closing? xs = none := by
  induction h with
  | refl r => rfl
  | step first _ ih => rw [Claude.closing?_append, first.closing?_eq_none, ih, Option.none_or]

theorem AtRest.closing?_feed (h : AtRest r) (xs : List Input) :
    closing? (Merging.feed xs r).2 = none :=
  (feed_induction (P := fun _ events => closing? events = none) [] xs
    (fun x s events hs hp => by
      rw [Claude.closing?_append, hp, (hs.moves x).closing?_eq_none, Option.none_or]) h rfl).2

/-- The block of text in the end. -/
theorem finish?_textDrafts {said : List String} {text : String} (joined : String.join said = text)
    (empty : said = [] ↔ text = "") : List.Forall₂ (fun d b => d.finish? = some b) (textDrafts said)
      (if text = "" then [] else [.plain text]) := by
  by_cases h : said = []
  · rw [textDrafts, if_pos h, if_pos (empty.mp h)]
    exact .nil
  · rw [textDrafts, if_neg h, if_neg fun ht => h (empty.mpr ht)]
    have hf : said.filterMap (fun x => (some x : Option String)) = said := List.filterMap_some
    refine .cons ?_ .nil
    simp [Draft.finish?, Block.plain, Draft.texts, List.filterMap_map, hf, joined]

/-- The closing delta comes at the end. -/
theorem closing?_closeMessage [Tokenizer] (ht : Tidy r) (reason : StopReason) :
    closing? (closeMessage reason r).2 = some (some reason, r.finalUsage) := by
  have hc : Tidy { r with phase := .finishing } := { ht with }
  rw [closeMessage_eq reason ht, Claude.closing?_append, (settle_moves hc.known).closing?_eq_none]
  rfl

/-- What the events of the answer reassemble to. -/
theorem Rendering.drafts {text : String} {calls : List Chat.ToolCall} {reason : Chat.FinishReason}
    {usage : Option Chat.Usage} (s : Rendering text calls reason usage)
    (named : ∀ c ∈ calls, c.id ≠ "" ∧ c.name ≠ "") (model : String) (promptTokens : Nat)
    (now : Instant) : Drawn (textDrafts s.fragments)
      (feed (inputs s.actions) (opened model promptTokens now)).1
      (noteAll [] (feed (inputs s.actions) (opened model promptTokens now)).2) := by
  obtain ⟨spoken, called, hi, hs, hc⟩ := s.exists_inputs
  have hr := atRest_opened model promptTokens now
  have hp : ∀ x ∈ spoken, x.isPart = true → ∃ t, x = .text t := by
    intro x hx hp
    have hm : x ∈ s.fragments.map Input.text := hs ▸ List.mem_filter.mpr ⟨hx, hp⟩
    obtain ⟨t, -, rfl⟩ := List.mem_map.mp hm
    exact ⟨t, rfl⟩
  have calm : ∀ x ∈ called, x.cuts = false := by
    intro x hx
    by_cases hp : x.isPart = true
    · have hm : x ∈ s.deltas.map Input.piece := hc ▸ List.mem_filter.mpr ⟨hx, hp⟩
      obtain ⟨d, -, rfl⟩ := List.mem_map.mp hm
      rfl
    · cases x <;> first | rfl | exact absurd rfl hp
  have hf : spoken.filterMap Input.text? = s.fragments := by
    rw [← filterMap_isPart _ (fun _ => rfl), hs, List.filterMap_map]
    exact List.filterMap_some
  -- The text comes first and makes its block; the calls only add drafts behind it.
  have h₀ : Spoken [] (opened model promptTokens now) [] := ⟨rfl, rfl, rfl, rfl, rfl⟩
  have h₁ := (h₀.feed spoken hp).drawn
  rw [List.nil_append, hf] at h₁
  have h₂ := h₁.feed (hr.feed spoken) (feed_knows hr rfl spoken) called calm
    (hi ▸ s.named_inputs named)
  rw [hi, feed_append, Step.seq_apply, Claude.noteAll_append]
  exact h₂

section Whole

variable [Tokenizer]

/-- The message ends with the drafts of all calls. -/
theorem Drawn.closeMessage {front : List Draft} (h : Drawn front r ds) (ht : Tidy r)
    (reason : StopReason) : ∃ events drafts, (closeMessage reason r).2 =
        events ++ Claude.closingEvents (some reason) none r.finalUsage ∧
      closing? events = none ∧ noteAll ds events = front ++ drafts ∧
      List.Forall₂ (fun index d => Whole r.calls index d ∨ Full r.calls index d) r.calls.indices
        drafts := by
  have hd : Drawn front { r with phase := .finishing } ds := { h with }
  have hc : Tidy { r with phase := .finishing } := { ht with }
  obtain ⟨drafts, hn, hw⟩ := hd.settle hc
  exact ⟨_, drafts, by rw [closeMessage_eq reason ht], (settle_moves hc.known).closing?_eq_none,
    hn, hw⟩

/-- The usage in the end, by what the provider reported last. -/
theorem finalUsage_eq (response : Chat.Response) (hu : r.lastUsage = response.usage)
    (ht : r.estimatedOutput = Tokens.ofResponse response) :
    r.finalUsage = .of (inputTokens r.promptTokens response.usage) response.outputTokens := by
  rw [finalUsage, hu, ht, Chat.Response.outputTokens]
  cases response.usage with
  | none => rfl
  | some u =>
    by_cases hc : 0 < u.completionTokens
    · simp [inputTokens, hc]
    · by_cases hp : 0 < u.promptTokens <;> simp [inputTokens, hc, hp]

/-- A plain answer, relayed in pieces and reassembled, says what its translation says :
the same blocks, the same reason to stop, and the same tokens of the answer. The tokens
of the prompt are the reported ones, where there are any. -/
theorem run_start_reassembles (model : String) (promptTokens : Nat) (now : Instant)
    {r : Chat.Response} {text : String} {calls : List Chat.ToolCall} {reason : Chat.FinishReason}
    (plain : r.IsPlain text calls reason) (said : ¬ (reason = .length ∧ text = ""))
    (s : Rendering text calls reason r.usage) :
    reassemble? (run s.actions (start model promptTokens now)).2 = some
      { content := r.toClaude.content
        stopReason := r.toClaude.stopReason
        usage := .of (inputTokens promptTokens r.usage) r.toClaude.usage.outputTokens } := by
  have hr := atRest_opened model promptTokens now
  have hf := hr.feed (inputs s.actions)
  have ha := s.agrees plain.named (feed_knows hr rfl (inputs s.actions))
  have hd := s.drafts plain.named model promptTokens now
  obtain ⟨events, drafts, he, hc, hn, hw⟩ :=
    hd.closeMessage hf.toTidy (Chat.stopReason (some reason))
  have hu : (feed (inputs s.actions) (opened model promptTokens now)).1.finalUsage =
      .of (inputTokens promptTokens r.usage) r.toClaude.usage.outputTokens := by
    rw [finalUsage_eq r, plain.outputTokens_toClaude, hr.feed_frame]
    · rfl
    · rw [hr.feed_lastUsage, s.usage_inputs]
      cases r.usage <;> rfl
    · rw [estimatedOutput, ha.callTexts, hr.feed_text, s.texts_inputs, s.joined, plain.tokens]
      exact congrArg (_ + Tokens.estimate ·) String.empty_append
  have hm : (textDrafts s.fragments ++ drafts).mapM Draft.finish? = some r.toClaude.content := by
    rw [plain.content_toClaude said]
    exact Claude.mapM_finish? (List.rel_append
      (finish?_textDrafts s.joined s.fragments_eq_nil_iff) (ha.blocks plain.parsed hw))
  rw [events_run_start model promptTokens now s.heard_actions.2, he, hu, plain.stopReason_toClaude,
    ← List.append_assoc, ← List.cons_append]
  refine Claude.reassemble?_append_closing ?_ ?_ _ _ _
  · rw [← List.singleton_append, Claude.closing?_append, Claude.closing?_append,
      hr.closing?_feed, hc]
    rfl
  · rw [Claude.noteAll_cons, Claude.noteAll_append]
    exact (congrArg _ hn).trans hm

end Whole

/-- An answer with a text and two calls. -/
def twoCalls : Chat.Response where
  id := "1"
  object := "chat.completion"
  created := 0
  model := "m"
  choices := [⟨0, ⟨.assistant, some (.text "Both."),
    some [⟨"a", "f", "\x7b\x7d"⟩, ⟨"b", "g", "\x7b\"x\":[1]\x7d "⟩], none, none⟩, some .toolCalls⟩]
  usage := none

/-- A chunk with nothing but a piece of text. -/
def textChunk (s : String) : Chat.Chunk :=
  ⟨"", "", 0, "", [⟨0, { Chat.Delta.empty with content := some s }, none⟩], none⟩

/-- Its text in two chunks, then the pieces of its calls in turn. -/
def twoCallsInTurn : Rendering "Both."
    [⟨"a", "f", "\x7b\x7d"⟩, ⟨"b", "g", "\x7b\"x\":[1]\x7d "⟩] .toolCalls none where
  chunks :=
    [textChunk "Bo", textChunk "th.",
      callChunk [⟨0, some "a", true, some (some "f", some "\x7b")⟩,
        ⟨1, some "b", true, some (some "g", some "\x7b\"x\":[1]")⟩],
      callChunk [⟨1, none, true, some (none, some "\x7d ")⟩,
        ⟨0, none, true, some (none, some "\x7d")⟩]]
  last := ⟨"", "", 0, "", [⟨0, Chat.Delta.empty, some .toolCalls⟩], none⟩
  fragments := ["Bo", "th."]
  deltas := [⟨0, some "a", true, some (some "f", some "\x7b")⟩,
    ⟨1, some "b", true, some (some "g", some "\x7b\"x\":[1]")⟩,
    ⟨1, none, true, some (none, some "\x7d ")⟩, ⟨0, none, true, some (none, some "\x7d")⟩]
  parts := by decide
  joined := by decide
  inOrder := by decide
  names := by rintro (_ | _ | k) c ⟨⟩ <;> exact ⟨_, rfl, rfl, rfl⟩
  brings := by rintro (_ | _ | k) c ⟨⟩ <;> decide
  goesOn := by decide
  stops := by decide
  reports := by decide

theorem isPlain_twoCalls : twoCalls.IsPlain "Both."
    [⟨"a", "f", "\x7b\x7d"⟩, ⟨"b", "g", "\x7b\"x\":[1]\x7d "⟩] .toolCalls where
  choice := ⟨_, rfl, .inl rfl, rfl, rfl⟩
  named := by decide
  parsed := by decide +kernel

theorem reassemble?_twoCallsInTurn :
    reassemble? (run twoCallsInTurn.actions (start "m" 1 ⟨0⟩)).2 = some
      { content := [.plain "Both.", .toolUse "a" "f" (.object []), .toolUse "b" "g"
          (.object [("x", .array [.nat 1])])]
        stopReason := some .toolUse
        usage := .of 1 12 } :=
  (run_start_reassembles "m" 1 ⟨0⟩ isPlain_twoCalls (by decide) twoCallsInTurn).trans
    (by decide +kernel)

end Relay.Merging

end Switchboard
