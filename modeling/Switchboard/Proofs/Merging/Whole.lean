import Switchboard.Proofs.Merging.Speech
import Switchboard.Proofs.Message.Content

/-!
# Answers whose calls come whole

Some providers do not cut the calls of an answer : each of them comes in one piece, and
text and reasoning may come before it, behind it and between two of them. Such an answer,
relayed and reassembled, has the text and the tool uses of the answer translated at once,
the same reason to stop and the same tokens (`Brings.exists_reply`). It may have more
blocks, since a call ends the block of text before it.

The text is said as it comes, by whatever blocks (`AtRest.spoken_feed`). The blocks of
calls carry what is known of the calls from the beginning (`Plated`), and are given all
the arguments, because none come late (`not_late`).
-/

namespace Switchboard.Relay.Merging

open Claude (Event StopReason callNumbers callStarts inputOf spoken uses utterances)

variable {cut : Bool} {r r' : Merging} {xs es : List Event}

/-! ## Text -/

/-- The text is part of what is said. -/
theorem spoken_eq_join (events : List Event) :
    spoken events = String.join ((utterances events).filterMap fun u =>
      (Event.blockDelta 0 u.2).spoken?) := by
  rw [Claude.utterances, List.filterMap_filterMap]
  refine congrArg String.join (List.filterMap_congr fun event _ => ?_)
  cases event with
  | blockDelta n delta => cases delta <;> rfl
  | _ => rfl

theorem spoken_closeMessage [Tokenizer] (ht : Tidy r) (reason : StopReason) :
    spoken (closeMessage reason r).2 = "" := by
  rw [closeMessage_eq reason ht, Claude.spoken_append, spoken_eq_join (settle _).2,
    utterances_settle]
  rfl

theorem texts_occurrences (x : Input) :
    (x.occurrences.filterMap Occurrence.delta?).filterMap (fun delta =>
      (Event.blockDelta 0 delta).spoken?) = x.text?.toList := by
  cases x with
  | thinking content signature =>
    cases hc : Chat.nonEmpty? content <;> cases hs : Chat.nonEmpty? signature <;>
      simp only [Input.occurrences, hc, hs] <;> rfl
  | _ => rfl

/-- The text of the inputs is said, piece after piece. -/
theorem AtRest.spoken_feed (h : AtRest r) (xs : List Input) :
    spoken (Merging.feed xs r).2 = String.join (xs.filterMap Input.text?) := by
  have hn (os : List Occurrence) : (r.count.number os).filterMap (fun u =>
      (Event.blockDelta 0 u.2).spoken?) = (os.filterMap Occurrence.delta?).filterMap fun delta =>
        (Event.blockDelta 0 delta).spoken? := by
    rw [← Count.number_snd r.count os, List.filterMap_map]
    rfl
  rw [spoken_eq_join, (feed_utters xs h).said, hn, List.filterMap_flatMap, List.filterMap_flatMap,
    List.filterMap_eq_flatMap_toList]
  simp only [texts_occurrences]

/-! ## Ids and names -/

theorem callStarts_eq (events : List Event) :
    callStarts events = (uses events).map fun u => u.2 := by
  rw [Claude.uses, List.map_filterMap]
  refine List.filterMap_congr fun event _ => ?_
  cases event with
  | blockStart n block => cases block <;> rfl
  | _ => rfl

/-- The calls that do not wait have their blocks, and these carry what is known of them. -/
def Plated (r : Merging) (es : List Event) : Prop :=
  ∃ begun, r.calls.indices = begun ++ r.queued ∧ (callStarts es).map some = begun.map r.callee?

theorem Serves.plated {more : List Nat} (h : Serves r xs r' more) (hp : Plated r es) :
    Plated r' (es ++ xs) := by
  obtain ⟨begun, hi, hs⟩ := hp
  refine ⟨begun ++ more, ?_, ?_⟩
  · rw [h.arrived, hi, h.queue, List.append_assoc]
  · rw [callStarts_append, List.map_append, hs, h.plates, h.callees, List.map_append]

/-- What is learnt of a call that has an id and a name of its own changes neither. -/
theorem Plated.learn (h : Plated r es) (x : Input)
    (named : ∀ d c, x.piece? = some d → r.calls.lookup d.index = some c → c.placeholder = false) :
    Plated (x.learn r) es := by
  obtain ⟨begun, hi, hs⟩ := h
  obtain ⟨new, hi', hq⟩ := x.learn_arrived r
  refine ⟨begun, by rw [hi', hi, hq, List.append_assoc], hs.trans (List.map_congr_left ?_)⟩
  intro index hb
  obtain ⟨c, hc⟩ := Calls.exists_lookup (hi ▸ List.mem_append_left _ hb : index ∈ r.calls.indices)
  rw [callee?, callee?, hc, lookup_learn named hc]

/-- If the first piece of each call has both an id and a name, no block carries another
one. -/
theorem Plated.feed {past : List Input} (h : Plated r es) (hr : AtRest r) (hk : Knows past r)
    (xs : List Input)
    (named : ∀ index d, (piecesOf index (past ++ xs)).head? = some d →
      (nameplate? d).isSome = true) :
    Plated (feed xs r).1 (es ++ (Merging.feed xs r).2) := by
  induction xs generalizing r es past with
  | nil => simpa [Step.emit] using h
  | cons x xs ih =>
    obtain ⟨more, hm⟩ := (hr.moves x).callStarts
    have hx : Plated (x.take r).1 (es ++ (x.take r).2) :=
      hm.plated (h.learn x fun d c _ hc => hk.placeholder named hc)
    have := ih hx (hr.take x) (hk.take hr x) (by simpa using named)
    rw [feed_cons, Step.seq_apply, ← List.append_assoc]
    exact this

/-! ## Arguments -/

/-- If no two pieces are of one call, no arguments come for a block that was stopped. -/
theorem not_late (model : String) (promptTokens : Nat) (now : Instant) {xs : List Input}
    (distinct : ((pieces xs).map (·.index)).Nodup) (index : Nat) :
    ¬ Late model promptTokens now xs index := by
  rintro ⟨past, d, rest, rfl, hi, -, n, hb, -⟩
  have hm : index ∈ indicesOf (pieces past) := by
    by_contra hm
    rw [blockOf?, lookup_zip_of_not_mem hm] at hb
    cases hb
  obtain ⟨e, he, heq⟩ := mem_indicesOf.mp hm
  rw [pieces_append, List.map_append] at distinct
  refine (List.nodup_append.mp distinct).2.2 e.index (List.mem_map_of_mem he) d.index ?_
    (heq.trans hi.symm)
  exact List.mem_map_of_mem List.mem_cons_self

/-- When no block is open, no call waits and nothing came late, the blocks of calls were
given all the arguments. -/
theorem Passed.forall₂_inputOf {late : Nat → Prop} (h : Passed late cut es r)
    (ho : r.openCall? = none) (hq : r.queued = []) (never : ∀ index, ¬ late index) :
    List.Forall₂ (fun index n => r.arguments? index = some (inputOf n es)) r.calls.indices
      (callNumbers es) := by
  obtain ⟨closed, numbers, current, hi, hn, hg, hc⟩ := h.calls
  rw [ho] at hi hc
  obtain rfl := List.forall₂_nil_left_iff.mp hc
  rw [hi, hn, hq]
  simp only [Option.toList_none, List.append_nil]
  refine hg.imp fun index n hx => ?_
  obtain ⟨rest, ha, hr⟩ := hx.front
  rw [ha, hr (never index), String.append_empty]

/-! ## Whole pieces -/

/-- Pieces of different calls. -/
theorem indicesOf_of_nodup {ds : List Chat.ToolCallDelta} (distinct : (ds.map (·.index)).Nodup) :
    indicesOf ds = ds.map (·.index) := by
  rw [indicesOf]
  generalize ds.map (·.index) = indices at distinct
  induction indices with
  | nil => rfl
  | cons i indices ih =>
    obtain ⟨hi, hd⟩ := List.nodup_cons.mp distinct
    have hf : indices.filter (fun j => !(j == i)) = indices := by
      refine List.filter_eq_self.mpr fun j hj => ?_
      have hne : j ≠ i := fun he => hi (he ▸ hj)
      simpa using hne
    rw [List.eraseDups_cons, hf, ih hd]

theorem filter_of_nodup {ds : List Chat.ToolCallDelta} (distinct : (ds.map (·.index)).Nodup)
    {d : Chat.ToolCallDelta} (h : d ∈ ds) : (ds.filter fun e => e.index = d.index) = [d] := by
  induction ds with
  | nil => cases h
  | cons e ds ih =>
    obtain ⟨he, hd⟩ := List.nodup_cons.mp (List.map_cons ▸ distinct)
    rcases List.mem_cons.mp h with rfl | h
    · rw [List.filter_cons_of_pos (by simp), List.filter_eq_nil_iff.mpr]
      intro e hm hi
      exact he (List.mem_map.mpr ⟨e, hm, by simpa using hi⟩)
    · rw [List.filter_cons_of_neg, ih hd h]
      have hne : e.index ≠ d.index := fun hi => he (hi ▸ List.mem_map_of_mem h)
      simpa using hne

/-- The piece that brings all of a call. -/
def wholePiece (index : Nat) (c : Chat.ToolCall) : Chat.ToolCallDelta :=
  ⟨index, some c.id, true, some (some c.name, some c.arguments)⟩

/-- The pieces that bring calls, the `k`-th one under the index `k`. -/
def wholePieces (calls : List Chat.ToolCall) : List Chat.ToolCallDelta := calls.mapIdx wholePiece

theorem map_index_wholePieces (calls : List Chat.ToolCall) :
    (wholePieces calls).map (·.index) = List.range calls.length :=
  List.ext_getElem (by simp [wholePieces]) (by simp [wholePieces, wholePiece])

theorem nodup_wholePieces (calls : List Chat.ToolCall) :
    ((wholePieces calls).map (·.index)).Nodup := by
  rw [map_index_wholePieces]
  exact List.nodup_range

theorem wholePiece_mem {calls : List Chat.ToolCall} {k : Nat} {c : Chat.ToolCall}
    (h : calls[k]? = some c) : wholePiece k c ∈ wholePieces calls :=
  List.mem_of_getElem? (i := k) (by rw [wholePieces, List.getElem?_mapIdx, h, Option.map_some])

theorem nameplate?_wholePiece {c : Chat.ToolCall} (named : c.id ≠ "" ∧ c.name ≠ "") (k : Nat) :
    nameplate? (wholePiece k c) = some (c.id, c.name) := by
  have hi : Chat.nonEmpty? (wholePiece k c).id = some c.id := nonEmpty?_of_ne named.1
  have hn : Chat.nonEmpty? (wholePiece k c).name? = some c.name := nonEmpty?_of_ne named.2
  rw [nameplate?, hi, hn]

section

variable {inputs : List Input} {calls : List Chat.ToolCall}

theorem piecesOf_of_whole (whole : pieces inputs = wholePieces calls) {k : Nat} {c : Chat.ToolCall}
    (h : calls[k]? = some c) : piecesOf k inputs = [wholePiece k c] := by
  rw [piecesOf, whole]
  exact filter_of_nodup (nodup_wholePieces calls) (wholePiece_mem h)

/-- In the end a relay knows the calls that came whole. -/
theorem Knows.agrees (hk : Knows inputs r) (whole : pieces inputs = wholePieces calls)
    (named : ∀ c ∈ calls, c.id ≠ "" ∧ c.name ≠ "") : Agrees r.calls calls := by
  refine ⟨?_, fun k c hc => ?_⟩
  · rw [hk.arrived, whole, indicesOf_of_nodup (nodup_wholePieces calls), map_index_wholePieces]
  · have hn := nameplate?_wholePiece (named c (List.mem_of_getElem? hc)) k
    have ha : argumentsOf [wholePiece k c] = c.arguments := by
      simp [argumentsOf, wholePiece, Chat.ToolCallDelta.arguments?]
    rw [hk.known, piecesOf_of_whole whole hc, callOf?, identity?, List.findSome?_cons, hn, ha]
    rfl

theorem named_of_whole (whole : pieces inputs = wholePieces calls)
    (named : ∀ c ∈ calls, c.id ≠ "" ∧ c.name ≠ "") (index : Nat) (d : Chat.ToolCallDelta)
    (h : (piecesOf index inputs).head? = some d) : (nameplate? d).isSome = true := by
  have hd : d ∈ wholePieces calls := by
    rw [← whole]
    exact (List.mem_filter.mp (List.mem_of_mem_head? h)).1
  obtain ⟨k, hk, rfl⟩ := List.mem_mapIdx.mp hd
  rw [nameplate?_wholePiece (named _ (List.getElem_mem hk))]
  rfl

end

/-! ## Whole answers -/

variable {text : String} {calls : List Chat.ToolCall} {reason : Chat.FinishReason}

/-- Calls as tool uses bring no text. -/
theorem textOf_toBlock (calls : List Chat.ToolCall) :
    Claude.textOf (calls.map Chat.ToolCall.toBlock) = "" :=
  congrArg String.join (List.filterMap_eq_nil_iff.mpr fun b hb => by
    obtain ⟨c, -, rfl⟩ := List.mem_map.mp hb
    rfl)

theorem toolUses_toBlock (calls : List Chat.ToolCall) :
    Claude.toolUses (calls.map Chat.ToolCall.toBlock) = calls.map Chat.ToolCall.toBlock :=
  List.filter_eq_self.mpr fun b hb => by
    obtain ⟨c, -, rfl⟩ := List.mem_map.mp hb
    rfl

/-- What is done to a relay brings an answer with its calls whole, the `k`-th one under the
index `k`. Text and reasoning may come before, between and behind them. -/
structure Brings (actions : List (Action Chat.Chunk)) (text : String) (calls : List Chat.ToolCall)
    (reason : Chat.FinishReason) (usage : Option Chat.Usage) : Prop where
  joined : String.join ((inputs actions).filterMap Input.text?) = text
  whole : pieces (inputs actions) = wholePieces calls
  stops : ending actions = .stopped (Chat.stopReason (some reason))
  reports : ((inputs actions).filterMap Input.usage?).getLast? = usage

variable [Tokenizer]

section Ended

variable (model : String) (promptTokens : Nat) (now : Instant) {inputs : List Input}

/-- The events of a relay that has taken inputs and ended its message. -/
def ended (inputs : List Input) (reason : StopReason) : List Event :=
  (taken model promptTokens now inputs).2 ++
    (closeMessage reason (taken model promptTokens now inputs).1).2

/-- The blocks of calls carry what is known of the calls, those of calls that waited until
the end too. -/
theorem forall₂_callee? (whole : pieces inputs = wholePieces calls)
    (named : ∀ c ∈ calls, c.id ≠ "" ∧ c.name ≠ "") (reason : StopReason) :
    let r := (taken model promptTokens now inputs).1
    List.Forall₂ (fun index u => r.callee? index = some u.2) r.calls.indices
      (uses (ended model promptTokens now inputs reason)) := by
  intro r
  have ho := atRest_opened model promptTokens now
  have hp : Plated (opened model promptTokens now) [openingEvent model promptTokens now] :=
    ⟨[], rfl, rfl⟩
  obtain ⟨r', hs⟩ := callStarts_closeMessage (ho.feed inputs) reason
  obtain ⟨begun, hi, hb⟩ :=
    hs.plated (hp.feed ho (feed_knows ho rfl []) inputs (named_of_whole whole named))
  have hq : r'.queued = [] := List.append_right_eq_self.mp hs.queue.symm
  rw [hq, List.append_nil, hs.arrived] at hi
  rw [← hi, hs.callees, callStarts_eq, List.map_map] at hb
  refine List.forall₂_map_left_iff.mp (List.forall₂_map_right_iff.mp ?_)
  rw [List.forall₂_eq_eq_eq]
  exact hb.symm

/-- They were given all the arguments, since none came late and no call waits any more. -/
theorem forall₂_arguments? (whole : pieces inputs = wholePieces calls) (reason : StopReason) :
    let r := (taken model promptTokens now inputs).1
    let events := ended model promptTokens now inputs reason
    List.Forall₂ (fun index u => r.arguments? index = some (inputOf u.1 events)) r.calls.indices
      (uses events) := by
  intro r events
  have ht : Tidy r := (atRest_taken model promptTokens now inputs).toTidy
  have hc : closeMessage reason r = _ := closeMessage_eq reason ht
  have hd : ((pieces inputs).map (·.index)).Nodup := whole ▸ nodup_wholePieces calls
  have hp : Passed _ true events (closeMessage reason r).1 :=
    (passed_taken model promptTokens now inputs (List.prefix_refl inputs)).closeMessage ht reason
  have hg := hp.forall₂_inputOf (by rw [hc]; rfl) (by rw [hc])
    (not_late model promptTokens now hd)
  rw [Claude.callNumbers_eq, List.forall₂_map_right_iff] at hg
  have hcalls : (closeMessage reason r).1.calls = r.calls := by rw [hc]
  simpa only [Merging.arguments?, hcalls] using hg

/-- So the tool uses that the events start are the calls of the answer. -/
theorem forall₂_uses (whole : pieces inputs = wholePieces calls)
    (named : ∀ c ∈ calls, c.id ≠ "" ∧ c.name ≠ "") (reason : StopReason) :
    let events := ended model promptTokens now inputs reason
    List.Forall₂ (fun c u => u.2 = (c.id, c.name) ∧ inputOf u.1 events = c.arguments) calls
      (uses events) := by
  intro events
  have hk := taken_knows model promptTokens now inputs
  refine (hk.agrees whole named).forall₂ (α := Nat × String × String) (P := fun c u =>
    u.2 = (c.id, c.name) ∧ inputOf u.1 events = c.arguments) ?_
  refine (forall₂_callee? model promptTokens now whole named reason).mp
    (fun index u hp ha c hl => ?_) (forall₂_arguments? model promptTokens now whole reason)
  rw [callee?, hl] at hp
  rw [Merging.arguments?, hl] at ha
  exact ⟨(Option.some.inj hp).symm, (Option.some.inj ha).symm⟩

theorem isMessage_ended (inputs : List Input) (reason : StopReason) :
    Claude.IsMessage (ended model promptTokens now inputs reason) :=
  Claude.Place.read?_before_eq_some_done_iff.mp
    (Claude.Place.read?_append_of_eq (read?_taken model promptTokens now inputs)
      ((atRest_taken model promptTokens now inputs).read?_closeMessage reason))

theorem spoken_ended (inputs : List Input) (reason : StopReason) :
    spoken (ended model promptTokens now inputs reason) =
      String.join (inputs.filterMap Input.text?) := by
  have hr := atRest_taken model promptTokens now inputs
  rw [ended, Claude.spoken_append, spoken_closeMessage hr.toTidy, String.append_empty]
  exact (atRest_opened model promptTokens now).spoken_feed inputs

theorem closing?_ended (inputs : List Input) (reason : StopReason) :
    Claude.closing? (ended model promptTokens now inputs reason) =
      some (some reason, (taken model promptTokens now inputs).1.finalUsage) := by
  have hr := atRest_taken model promptTokens now inputs
  have hn : Claude.closing? (taken model promptTokens now inputs).2 = none :=
    (atRest_opened model promptTokens now).closing?_feed inputs
  rw [ended, Claude.closing?_append, hn, closing?_closeMessage hr.toTidy, Option.none_or]

end Ended

/-! ## The translation -/

/-- The text of the translation, which says so if it was cut off before its first word. -/
theorem textOf_toClaude {r : Chat.Response} (plain : r.IsPlain text calls reason) :
    Claude.textOf r.toClaude.content =
      if reason = .length ∧ text = "" then Chat.truncationNotice else text := by
  rw [plain.blocks_toClaude, Claude.textOf_append, textOf_toBlock, String.append_empty]
  split_ifs with hl ht
  · simp [Claude.textOf, Claude.Block.text?, Claude.Block.plain]
  · exact ht.symm
  · simp [Claude.textOf, Claude.Block.text?, Claude.Block.plain]

theorem toolUses_toClaude {r : Chat.Response} (plain : r.IsPlain text calls reason) :
    Claude.toolUses r.toClaude.content = calls.map Chat.ToolCall.toBlock := by
  rw [plain.blocks_toClaude, Claude.toolUses_append, toolUses_toBlock]
  split_ifs <;> rfl

namespace Brings

variable (model : String) (promptTokens : Nat) (now : Instant)
variable {r : Chat.Response} {actions : List (Action Chat.Chunk)}

theorem finalUsage_taken (plain : r.IsPlain text calls reason)
    (h : Brings actions text calls reason r.usage) :
    (taken model promptTokens now (inputs actions)).1.finalUsage =
      .of (inputTokens promptTokens r.usage) r.toClaude.usage.outputTokens := by
  have ho := atRest_opened model promptTokens now
  have ha := (taken_knows model promptTokens now (inputs actions)).agrees h.whole plain.named
  rw [finalUsage_eq r, plain.outputTokens_toClaude, taken_fst, ho.feed_frame]
  · rfl
  · rw [taken_fst, ho.feed_lastUsage, h.reports]
    cases r.usage <;> rfl
  · rw [estimatedOutput, ha.callTexts, taken_fst, ho.feed_text, h.joined, plain.tokens]
    exact congrArg (_ + Tokens.estimate ·) String.empty_append

/-- An answer whose calls come whole, relayed and reassembled, has the text of the answer
and its calls, and the reason to stop and the tokens of its translation. -/
theorem exists_reply (plain : r.IsPlain text calls reason)
    (h : Brings actions text calls reason r.usage) :
    ∃ content, Claude.reassemble? (run actions (start model promptTokens now)).2 = some
        { content := content
          stopReason := r.toClaude.stopReason
          usage := .of (inputTokens promptTokens r.usage) r.toClaude.usage.outputTokens } ∧
      Claude.textOf content = text ∧
      Claude.toolUses content = calls.map Chat.ToolCall.toBlock := by
  have hrun : (run actions (start model promptTokens now)).2 =
      ended model promptTokens now (inputs actions) (Chat.stopReason (some reason)) :=
    events_run_start model promptTokens now h.stops
  have hm := isMessage_ended model promptTokens now (inputs actions)
    (Chat.stopReason (some reason))
  have ht := spoken_ended model promptTokens now (inputs actions) (Chat.stopReason (some reason))
  have hc := closing?_ended model promptTokens now (inputs actions)
    (Chat.stopReason (some reason))
  have hu := forall₂_uses model promptTokens now h.whole plain.named
    (Chat.stopReason (some reason))
  rw [h.joined] at ht
  rw [← plain.stopReason_toClaude, h.finalUsage_taken model promptTokens now plain] at hc
  rw [hrun]
  generalize ended model promptTokens now (inputs actions) _ = events at hm ht hc hu ⊢
  have reads : ∀ u ∈ uses events, Claude.inputValue? (inputOf u.1 events) =
      some (Chat.parseArguments (inputOf u.1 events)) := by
    intro u hm
    obtain ⟨k, hk, rfl⟩ := List.getElem_of_mem hm
    have hl : k < calls.length := hu.length_eq ▸ hk
    obtain ⟨v, hv⟩ := Option.isSome_iff_exists.mp (plain.parsed calls[k] (List.getElem_mem hl))
    have ha : inputOf (uses events)[k].1 events = calls[k].arguments := (hu.get hl hk).2
    rw [ha, inputValue?_of_parse? hv, parseArguments_of_parse? hv]
  obtain ⟨content, hf, hs, hv⟩ :=
    hm.exists_content (fun n => Chat.parseArguments (inputOf n events)) reads
  refine ⟨content, Claude.reassemble?_of_closing hf hc, hs.trans ht, hv.trans (Eq.symm ?_)⟩
  rw [← List.forall₂_eq_eq_eq, List.forall₂_map_left_iff, List.forall₂_map_right_iff]
  refine hu.imp fun c u hcu => ?_
  obtain ⟨n, id, name⟩ := u
  obtain ⟨rfl, rfl⟩ := Prod.mk.inj hcu.1
  rw [Chat.ToolCall.toBlock, ← hcu.2]

end Brings

end Switchboard.Relay.Merging
