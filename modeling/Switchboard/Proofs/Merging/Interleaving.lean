import Switchboard.Proofs.Json.Whole
import Switchboard.Proofs.Merging.Fidelity

/-!
# Interleaved calls lose nothing

Once calls have begun, only text and reasoning cut them short. Without those a block is
stopped when it holds a whole object, and not before (`passed_of_quiet`). What comes for
it afterwards can only be blank, if all its arguments are one object. So calls may be
interleaved in any way, and each is given its arguments, up to blanks behind them
(`run_start_loses_nothing`).
-/

namespace Switchboard.Relay.Merging

open Claude (Event inputOf)

variable {r : Merging} {es : List Event} {index : Nat}

/-! ## Chunks that say nothing -/

/-- Whether the first choice of a chunk brings text, reasoning or a signature. -/
def speaks (chunk : Chat.Chunk) : Bool :=
  chunk.choices.head?.any fun choice =>
    (Chat.nonEmpty? choice.delta.content).isSome ||
      (Chat.nonEmpty? choice.delta.reasoningContent).isSome ||
      choice.delta.thinking.any fun t =>
        (Chat.nonEmpty? t.content).isSome || (Chat.nonEmpty? t.signature).isSome

/-- Whether an input has a say in the answer beside the calls. -/
def Input.speaks : Input → Bool
  | thinking content signature =>
    (Chat.nonEmpty? content).isSome || (Chat.nonEmpty? signature).isSome
  | text _ => true
  | report _ | piece _ => false

/-- Nothing is said once a call has begun. -/
def IsQuiet (xs : List Input) : Prop :=
  xs.Pairwise fun x y => x.piece?.isSome = true → y.speaks = false

theorem speaks_of_mem_chunkInputs {chunk : Chat.Chunk} {x : Input} (h : x ∈ chunkInputs chunk)
    (hx : x.speaks = true) : speaks chunk = true := by
  rcases List.mem_cons.mp h with rfl | h
  · cases hx
  obtain ⟨choice, hc, h⟩ := List.mem_flatMap.mp h
  have hc : chunk.choices.head? = some choice := Option.mem_toList.mp hc
  rw [speaks, hc, Option.any_some]
  simp only [choiceInputs, List.mem_append, List.mem_map, Option.mem_toList] at h
  obtain ((⟨s, hs, rfl⟩ | ⟨t, ht, rfl⟩) | ⟨s, hs, rfl⟩) | ⟨d, -, rfl⟩ := h
  · have hn : (Chat.nonEmpty? (some s)).isSome = true := (Bool.or_false _).symm.trans hx
    simp [hs, hn]
  · have hn : ((Chat.nonEmpty? t.content).isSome || (Chat.nonEmpty? t.signature).isSome) = true :=
      hx
    simp [ht, hn]
  · simp [hs]
  · cases hx

/-- In a chunk the pieces of calls come last. -/
theorem exists_chunkInputs (chunk : Chat.Chunk) : ∃ (said : List Input)
    (ds : List Chat.ToolCallDelta), chunkInputs chunk = said ++ ds.map .piece ∧
      ∀ x ∈ said, x.piece? = none := by
  cases hc : chunk.choices.head? with
  | none =>
    exact ⟨chunkInputs chunk, [], by simp, by simp [chunkInputs, chunkParts, hc, Input.piece?]⟩
  | some choice =>
    have he : chunkInputs chunk = .report chunk.usage :: choiceInputs choice := by
      simp [chunkInputs, chunkParts, hc]
    rw [he, choiceInputs, ← List.cons_append]
    refine ⟨_, choicePieces choice, rfl, fun x hx => ?_⟩
    simp only [List.mem_append, List.mem_cons, List.mem_map] at hx
    obtain rfl | (⟨s, -, rfl⟩ | ⟨t, -, rfl⟩) | ⟨s, -, rfl⟩ := hx <;> rfl

theorem isQuiet_chunkInputs (chunk : Chat.Chunk) : IsQuiet (chunkInputs chunk) := by
  obtain ⟨said, ds, he, hs⟩ := exists_chunkInputs chunk
  rw [IsQuiet, he]
  refine List.pairwise_append.mpr ⟨?_, ?_, ?_⟩
  · refine List.Pairwise.imp_of_mem (fun hx _ _ hp => ?_)
      (List.pairwise_of_forall (R := fun _ _ => True) fun _ _ => trivial)
    rw [hs _ hx] at hp
    cases hp
  · exact List.pairwise_map.mpr (List.pairwise_of_forall fun _ _ _ => rfl)
  · intro x hx y _ hp
    rw [hs x hx] at hp
    cases hp

theorem isQuiet_inputs {actions : List (Action Chat.Chunk)}
    (quiet : (heard actions).Pairwise fun earlier later =>
      callDeltas earlier ≠ [] → speaks later = false) : IsQuiet (inputs actions) := by
  refine List.pairwise_flatMap.mpr ⟨fun chunk _ => isQuiet_chunkInputs chunk, ?_⟩
  refine quiet.imp fun {earlier later} h x hx y hy hp => ?_
  by_contra hs
  have hd : callDeltas earlier ≠ [] := by
    intro hd
    have hn : pieces (chunkInputs earlier) = [] := by
      rw [pieces_chunkInputs, hd]
      rfl
    rw [List.filterMap_eq_nil_iff.mp hn x hx] at hp
    cases hp
  rw [Bool.not_eq_false] at hs
  exact absurd (h hd) (by rw [speaks_of_mem_chunkInputs hy hs]; decide)

theorem Input.take_of_not_speaks {x : Input} (hs : x.speaks = false) (hc : x.cuts = true)
    (r : Merging) : x.take r = (r, []) := by
  cases x with
  | text s => cases hs
  | report usage | piece d => cases hc
  | thinking content signature =>
    simp only [speaks, Bool.or_eq_false_iff, Option.isSome_eq_false_iff] at hs
    simp only [take, onThinking, hs.1, hs.2, Bool.and_self, if_true]
    rfl

/-! ## Blocks that hold whole objects -/

/-- While no call has arrived nothing has been passed on. -/
theorem Passed.of_no_calls {late late' : Nat → Prop} {cut cut' : Bool} (h : Passed late cut es r)
    (hc : r.calls = []) : Passed late' cut' es r := by
  obtain ⟨closed, numbers, current, hi, hn, hg, hr⟩ := h.calls
  have hi : [] = closed ++ r.openCall?.toList ++ r.queued := by
    rw [← hi, hc]
    rfl
  obtain ⟨hl, hq⟩ := List.append_eq_nil_iff.mp hi.symm
  obtain ⟨rfl, ho⟩ := List.append_eq_nil_iff.mp hl
  rw [ho] at hr
  obtain rfl := List.forall₂_nil_left_iff.mp hg
  obtain rfl := List.forall₂_nil_left_iff.mp hr
  refine ⟨h.fresh, [], [], [], ?_, hn, .nil, ?_⟩
  · rw [ho, hq, hc]
    rfl
  · rw [ho]
    exact .nil

section Runs

variable (model : String) (promptTokens : Nat) (now : Instant)

/-- Quiet inputs stop the block of a call only when it holds a whole object. -/
theorem passed_of_quiet {xs : List Input} (quiet : IsQuiet xs) :
    Passed (fun _ => True) false (taken model promptTokens now xs).2
      (taken model promptTokens now xs).1 := by
  induction xs using List.reverseRecOn with
  | nil => exact passed_of_no_calls _ _ rfl rfl rfl rfl fun _ => rfl
  | append_singleton xs x ih =>
    obtain ⟨hq, -, hx⟩ := List.pairwise_append.mp quiet
    -- Until the first call whatever comes makes no difference, and then nothing cuts.
    by_cases hn : pieces (xs ++ [x]) = []
    · refine (passed_taken model promptTokens now _ (List.prefix_refl _)).of_no_calls ?_
      have ha := (taken_knows model promptTokens now (xs ++ [x])).arrived
      rw [hn] at ha
      exact List.map_eq_nil_iff.mp ha
    rw [taken_concat]
    by_cases hc : x.cuts = false
    · exact (ih hq).take (atRest_taken model promptTokens now xs) x (.inr hc)
        fun _ _ _ _ => trivial
    rw [Bool.not_eq_false] at hc
    have hp : x.piece? = none := by
      cases x with
      | piece d => cases hc
      | report usage | thinking content signature | text s => rfl
    have hs : x.speaks = false := by
      obtain ⟨y, hy, hd⟩ : ∃ y ∈ xs, y.piece?.isSome = true := by
        by_contra hno
        push Not at hno
        refine hn (List.filterMap_eq_nil_iff.mpr fun y hy => ?_)
        rcases List.mem_append.mp hy with hy | hy
        · simpa using hno y hy
        · rw [List.mem_singleton.mp hy, hp]
      exact hx y hy x List.mem_cons_self hd
    rw [Input.take_of_not_speaks hs hc, List.append_nil]
    exact ih hq

/-- A block that was stopped since it held a whole object lacks nothing but blanks, if all
the arguments of its call are one object. -/
theorem Passed.isBlankText_of_stopped {late : Nat → Prop} (h : Passed late false es r)
    (ht : Tidy r) (hr : Claude.Place.before.read? es = some r.place)
    (hs : IsStopped r.calls.indices es index) {total : String}
    (ha : r.arguments? index = some total) {fields : List (String × Json)}
    (parsed : Json.Reader.standard.read? (Text.trimChars total.toList) = some (.object fields)) :
    ∃ n rest, blockOf? r.calls.indices es index = some n ∧ .blockStop n ∈ es ∧
      total = inputOf n es ++ rest ∧ Text.isBlankText rest = true := by
  obtain ⟨n, hb, hn⟩ := hs
  obtain hg | hg := h.giving_or_given ht hb
  · exact absurd hn (not_blockStop_of_open hr hg.isOpen)
  obtain ⟨rest, hf, -⟩ := hg.front
  obtain rfl : total = inputOf n es ++ rest := Option.some.inj (ha.symm.trans hf)
  have hw := hg.whole.resolve_left Bool.false_ne_true
  exact ⟨n, rest, hb, hn, rfl, Json.isBlankText_of_isWholeObject hw parsed⟩

/-! ## Whole messages -/

/-- All the arguments that chunks bring for the call with an index. -/
def brought (index : Nat) (chunks : List Chat.Chunk) : String :=
  argumentsOf ((chunks.flatMap callDeltas).filter fun d => d.index = index)

theorem firstPieces_of_nodup {seen : List Nat} {ds : List Chat.ToolCallDelta}
    (single : (ds.map (·.index)).Nodup) (unseen : ∀ d ∈ ds, d.index ∉ seen) :
    firstPieces seen ds = ds := by
  induction ds generalizing seen with
  | nil => rfl
  | cons d ds ih =>
    obtain ⟨hd, single⟩ := List.nodup_cons.mp single
    have hs : seen.contains d.index = false := by simpa using unseen d List.mem_cons_self
    rw [firstPieces, hs, if_neg Bool.false_ne_true, ih single fun e he hm => ?_]
    rcases List.mem_cons.mp hm with hm | hm
    · exact hd (List.mem_map.mpr ⟨e, he, hm⟩)
    · exact unseen e (List.mem_cons_of_mem d he) hm

/-- Where no chunk has two pieces for one call, all of them count. -/
theorem brought_eq {actions : List (Action Chat.Chunk)}
    (single : ∀ chunk ∈ heard actions, ((callDeltas chunk).map (·.index)).Nodup) :
    brought index (heard actions) = argumentsOf (piecesOf index (inputs actions)) := by
  have hp : pieces (inputs actions) = (heard actions).flatMap callDeltas := by
    rw [pieces, inputs, List.filterMap_flatMap]
    refine List.flatMap_congr fun chunk hc => ?_
    exact (pieces_chunkInputs chunk).trans
      (firstPieces_of_nodup (single chunk hc) fun _ _ => List.not_mem_nil)
  rw [brought, piecesOf, hp]

variable [Tokenizer]

/-- A block that was not stopped before the end of the message is given all there is. -/
theorem Passed.given_at_end {late : Nat → Prop} (h : Passed late true es r) (ht : Tidy r)
    (reason : Claude.StopReason) (arrived : index ∈ r.calls.indices) (inTime : ¬ late index) :
    ∃ n, blockOf? r.calls.indices (es ++ (Merging.closeMessage reason r).2) index = some n ∧
      r.arguments? index = some (inputOf n (es ++ (Merging.closeMessage reason r).2)) := by
  have hc := h.closeMessage ht reason
  have he := closeMessage_eq reason ht
  obtain ⟨n, hb, hg⟩ := hc.exists_given (by simpa [he] using arrived) (by simp [he, openCall?])
    (by simp [he])
  obtain ⟨rest, hf, hrest⟩ := hg.front
  rw [hrest inTime, String.append_empty] at hf
  rw [he] at hb hf ⊢
  exact ⟨n, hb, hf⟩

/-- Where nothing but pieces of calls comes once a call has begun, at most one for each
call in a chunk, the calls may be interleaved in any way : at the end of the message a
call the arguments of which are an object has been given all of them, up to blanks behind
the object. -/
theorem run_start_loses_nothing {actions : List (Action Chat.Chunk)}
    (quiet : (heard actions).Pairwise fun earlier later =>
      callDeltas earlier ≠ [] → speaks later = false)
    (single : ∀ chunk ∈ heard actions, ((callDeltas chunk).map (·.index)).Nodup)
    {reason : Claude.StopReason} (stopped : ending actions = .stopped reason)
    (arrived : index ∈ arrivals actions) {fields : List (String × Json)}
    (parsed : Json.Reader.standard.read? (Text.trimChars (brought index (heard actions)).toList) =
      some (.object fields)) :
    let events := (run actions (start model promptTokens now)).2
    ∃ n rest, blockOf? (arrivals actions) events index = some n ∧
      brought index (heard actions) = inputOf n events ++ rest ∧
      Text.isBlankText rest = true := by
  intro events
  have ho := opens_of_stopped stopped
  have hp := passed_of_quiet model promptTokens now (isQuiet_inputs quiet)
  have hr := atRest_taken model promptTokens now (inputs actions)
  have hk := taken_knows model promptTokens now (inputs actions)
  have hread := read?_taken model promptTokens now (inputs actions)
  generalize hs : taken model promptTokens now (inputs actions) = s at hp hr hk hread
  have he : events = s.2 ++ (closeMessage reason s.1).2 := by
    show (run actions (start model promptTokens now)).2 = _
    rw [run_start_eq_taken model promptTokens now ho, stopped, hs]
    rfl
  rw [← indicesOf_inputs, ← hk.arrived] at arrived ⊢
  rw [brought_eq single] at parsed ⊢
  have ha := hk.arguments? index
  rw [if_pos (hk.arrived ▸ arrived)] at ha
  by_cases hstop : IsStopped s.1.calls.indices s.2 index
  · obtain ⟨n, rest, hb, hn, htotal, hblank⟩ :=
      hp.isBlankText_of_stopped hr.toTidy hread hstop ha parsed
    obtain ⟨place, hend, -⟩ := read?_run_start model promptTokens now actions
    have hi : inputOf n events = inputOf n s.2 := by
      rw [he]
      refine Claude.inputOf_append_of_stopped (p := .before) (q := place) hn ?_
      rw [← he]
      exact hend
    refine ⟨n, rest, blockOf?_mono (List.prefix_refl _) (he ▸ List.prefix_append _ _) hb, ?_,
      hblank⟩
    rw [hi, htotal]
  · -- The block goes on to the end or starts there.
    obtain ⟨n, hb, hf⟩ := (hp.weaken hr.toTidy fun _ h _ => h).given_at_end hr.toTidy reason
      arrived hstop
    rw [← he] at hb hf
    refine ⟨n, "", hb, ?_, rfl⟩
    rw [String.append_empty]
    exact Option.some.inj (ha.symm.trans hf)

end Runs

/-- A text and two calls. The second call comes while the first one lacks its last brace,
and a break comes for the first one when it has been stopped. -/
def interleaved : List (Action Chat.Chunk) :=
  [.accept ⟨"", "", 0, "", [⟨0, { Chat.Delta.empty with
      content := some "Both."
      toolCalls := some [⟨4, some "a", true, some (some "f", some "\x7b")⟩] }, none⟩], none⟩,
    .accept (callChunk [⟨2, some "b", true, some (some "g", some "\x7b\"x\":")⟩]),
    .accept (callChunk [⟨2, none, true, some (none, some "[1]\x7d")⟩,
      ⟨4, none, true, some (none, some "\x7d")⟩]),
    .accept (callChunk [⟨4, none, true, some (none, some "\n")⟩]), .finish]

theorem blockOf?_interleaved : ∃ n rest,
    blockOf? (arrivals interleaved) (run interleaved (start "m" 1 ⟨0⟩)).2 4 = some n ∧
      "\x7b\x7d\n" = inputOf n (run interleaved (start "m" 1 ⟨0⟩)).2 ++ rest ∧
      Text.isBlankText rest = true :=
  run_start_loses_nothing "m" 1 ⟨0⟩ (by decide) (by decide) rfl (by decide)
    (by decide +kernel : Json.Reader.standard.read? _ = some (.object []))

end Switchboard.Relay.Merging
