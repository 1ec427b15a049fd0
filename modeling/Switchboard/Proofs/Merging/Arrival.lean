import Mathlib.Data.List.Infix
import Switchboard.Proofs.Merging.Calls

/-!
# Every call gets one block

The blocks of calls are started in the order in which the indices of the calls first
appear in the stream, one block for each index, whatever comes between their pieces. A
block carries the id and the name that are known when it starts, and a piece that
promotes a call emits nothing by that (`run_start_callStarts`).

What carries the induction : at any time the calls are those whose blocks were started,
followed by those that wait (`Served`), and a move takes calls off the front of the queue
only (`Moves.callStarts`).
-/

namespace Switchboard

/-- The id and the name in the start of a block of a call. -/
def Claude.Event.callStart? : Claude.Event → Option (String × String)
  | .blockStart _ (.toolUse id name _) => some (id, name)
  | _ => none

/-- The ids and names of the blocks of calls that are started, in order. -/
def Claude.callStarts (events : List Claude.Event) : List (String × String) :=
  events.filterMap Claude.Event.callStart?

namespace Relay.Merging

open Claude (Event StopReason callStarts)

variable {cut : Bool} {r r' : Merging} {xs ys : List Event}

theorem callStarts_append (xs ys : List Event) :
    callStarts (xs ++ ys) = callStarts xs ++ callStarts ys :=
  List.filterMap_append

/-! ## Moves start waiting calls in order -/

/-- The id and the name of the call with an index, as they are known. -/
def callee? (r : Merging) (index : Nat) : Option (String × String) :=
  (r.calls.lookup index).map fun c => (c.id, c.name)

theorem callee?_keep (r : Merging) (index : Nat) (s : String) (j : Nat) :
    (r.keep index s).callee? j = r.callee? j := by
  simp only [callee?, keep, Calls.lookup_modify]
  split
  · cases r.calls.lookup j <;> rfl
  · rfl

theorem callStarts_of_form {n : Nat} {block : Claude.Block} {form : Claude.Form}
    (fresh : block.form? = some form) (plain : form ≠ .toolUse) :
    callStarts [.blockStart n block] = [] := by
  cases block with
  | toolUse id name input =>
    refine absurd (Option.some.inj (fresh.symm.trans ?_)) plain
    unfold Claude.Block.form? at fresh ⊢
    split at fresh <;> simp_all
  | _ => rfl

theorem callStarts_callEvents (n : Nat) (c : Call) :
    callStarts (callEvents n c) = [(c.id, c.name)] := by
  unfold callEvents
  split <;> rfl

/-- What a move does to the queue : the calls that it starts leave it at the front, and
their blocks carry what is known of them. -/
structure Serves (r : Merging) (xs : List Event) (r' : Merging) (begun : List Nat) : Prop where
  queue : r.queued = begun ++ r'.queued
  plates : (callStarts xs).map some = begun.map r.callee?
  callees : r'.callee? = r.callee?
  arrived : r'.calls.indices = r.calls.indices

theorem Move.callStarts (h : Move cut r xs r') : ∃ begun, Serves r xs r' begun := by
  cases h with
  | stop isOpen _ => exact ⟨[], rfl, rfl, rfl, rfl⟩
  | start idle _ plain fresh =>
    exact ⟨[], rfl, by rw [callStarts_of_form fresh plain]; rfl, rfl, rfl⟩
  | @call index c rest idle first known =>
    exact ⟨[index], first, by simp [callStarts_callEvents, callee?, known], rfl, rfl⟩
  | say isOpen _ plain fits => exact ⟨[], rfl, rfl, rfl, rfl⟩
  | grow isOpen | hold notOpen =>
    exact ⟨[], rfl, rfl, funext fun j => callee?_keep r _ _ j, keep_indices r _ _⟩

theorem Moves.callStarts (h : Moves cut r xs r') : ∃ begun, Serves r xs r' begun := by
  induction h with
  | refl r => exact ⟨[], rfl, rfl, rfl, rfl⟩
  | step first _ ih =>
    obtain ⟨begun, hb⟩ := first.callStarts
    obtain ⟨more, hm⟩ := ih
    refine ⟨begun ++ more, ?_, ?_, hm.callees.trans hb.callees, hm.arrived.trans hb.arrived⟩
    · rw [hb.queue, hm.queue, List.append_assoc]
    · rw [callStarts_append, List.map_append, List.map_append, hb.plates, hm.plates, hb.callees]

theorem Serves.getElem? {begun : List Nat} (h : Serves r xs r' begun) {k index : Nat}
    (hk : begun[k]? = some index) : (callStarts xs)[k]? = r.callee? index := by
  have hp := congrArg (·[k]?) h.plates
  simp only [List.getElem?_map, hk, Option.map_some] at hp
  obtain ⟨plate, hs, hc⟩ := Option.map_eq_some_iff.mp hp
  rw [hs, hc]

theorem Serves.length {begun : List Nat} (h : Serves r xs r' begun) :
    (callStarts xs).length = begun.length := by
  simpa using congrArg List.length h.plates

theorem Knows.callee? {inputs : List Input} (h : Knows inputs r) (index : Nat) :
    r.callee? index = identity? r.now (piecesOf index inputs) := by
  rw [Merging.callee?, h.known, callOf?, Option.map_map]
  exact congrFun Option.map_id _

/-! ## Calls that were started, calls that wait -/

/-- What has been taken in when the `k`-th call has its block : the shortest front of the
inputs after which it was started, all of them if it is started at the end. -/
def knownAt (r : Merging) (k : Nat) (xs : List Input) : List Input :=
  (xs.inits.find? fun past => k < (callStarts (feed past r).2).length).getD xs

theorem callStarts_feed_concat (r : Merging) (xs : List Input) (x : Input) :
    callStarts (feed (xs ++ [x]) r).2 =
      callStarts (feed xs r).2 ++ callStarts (x.take (feed xs r).1).2 := by
  rw [feed_concat, Step.seq_apply, callStarts_append]

/-- Calls once started stay started. -/
theorem callStarts_feed_front (r : Merging) {past xs : List Input} (h : past <+: xs) :
    callStarts (feed past r).2 <+: callStarts (feed xs r).2 := by
  obtain ⟨rest, rfl⟩ := h
  rw [feed_append, Step.seq_apply, callStarts_append]
  exact List.prefix_append _ _

theorem knownAt_of_started {r : Merging} {k : Nat} {xs : List Input} (x : Input)
    (h : k < (callStarts (feed xs r).2).length) : knownAt r k (xs ++ [x]) = knownAt r k xs := by
  have hs : (xs.inits.find? fun past => k < (callStarts (feed past r).2).length).isSome :=
    List.find?_isSome.mpr ⟨xs, (List.mem_inits _ _).mpr (List.prefix_refl xs), by simpa using h⟩
  obtain ⟨past, hp⟩ := Option.isSome_iff_exists.mp hs
  simp only [knownAt, List.inits_append, List.find?_append, hp, Option.some_or, Option.getD_some]

/-- No front of the inputs starts what all of them do not. -/
theorem find?_inits_of_waiting {r : Merging} {k : Nat} {xs : List Input}
    (h : (callStarts (feed xs r).2).length ≤ k) :
    (xs.inits.find? fun past => k < (callStarts (feed past r).2).length) = none := by
  refine List.find?_eq_none.mpr fun past hp => ?_
  have hl := (callStarts_feed_front r ((List.mem_inits _ _).mp hp)).length_le
  simp only [decide_eq_true_eq, not_lt]
  exact hl.trans h

theorem knownAt_of_waiting {r : Merging} {k : Nat} {xs : List Input}
    (h : (callStarts (feed xs r).2).length ≤ k) : knownAt r k xs = xs := by
  rw [knownAt, find?_inits_of_waiting h, Option.getD_none]

theorem knownAt_concat_of_waiting {r : Merging} {k : Nat} {xs : List Input} (x : Input)
    (h : (callStarts (feed xs r).2).length ≤ k) : knownAt r k (xs ++ [x]) = xs ++ [x] := by
  simp only [knownAt, List.inits_append, List.find?_append, find?_inits_of_waiting h]
  simp only [Option.none_or, List.inits, List.map_cons, List.map_nil, List.tail_cons,
    List.find?_cons, List.find?_nil]
  split <;> rfl

/-- The calls with the indices `begun` have their blocks, the others wait. -/
structure Served (r : Merging) (xs : List Input) (begun : List Nat) : Prop where
  arrived : (feed xs r).1.calls.indices = begun ++ (feed xs r).1.queued
  counted : (callStarts (feed xs r).2).length = begun.length
  named : ∀ k index, begun[k]? = some index →
    (callStarts (feed xs r).2)[k]? = identity? r.now (piecesOf index (knownAt r k xs))

theorem Served.take {xs : List Input} {begun : List Nat} (h : Served r xs begun) (hr : AtRest r)
    (empty : r.calls = []) (x : Input) : ∃ more, Served r (xs ++ [x]) (begun ++ more) := by
  have hs := hr.feed xs
  have hk := feed_knows hr empty (xs ++ [x])
  obtain ⟨new, hi, hq⟩ := x.learn_arrived (feed xs r).1
  obtain ⟨more, hm⟩ := (hs.moves x).callStarts
  have hf : (feed (xs ++ [x]) r).1 = (x.take (feed xs r).1).1 := by
    rw [feed_concat, Step.seq_apply]
  refine ⟨more, ?_, ?_, fun k index hb => ?_⟩
  · rw [hf, hm.arrived, hi, h.arrived, List.append_assoc, List.append_assoc, ← hq, hm.queue]
  · rw [callStarts_feed_concat, List.length_append, List.length_append, h.counted, hm.length]
  · rw [callStarts_feed_concat]
    -- A block that was started before keeps its plate, and a new one has what is known by now.
    rcases Nat.lt_or_ge k begun.length with hl | hl
    · rw [List.getElem?_append_left hl] at hb
      rw [List.getElem?_append_left (h.counted ▸ hl), h.named k index hb,
        knownAt_of_started x (h.counted ▸ hl)]
    · rw [List.getElem?_append_right hl] at hb
      rw [List.getElem?_append_right (h.counted ▸ hl), h.counted, hm.getElem? hb, ← hm.callees,
        knownAt_concat_of_waiting x (h.counted ▸ hl), ← hr.feed_now (xs ++ [x]), ← hk.callee?, hf]

theorem exists_served (hr : AtRest r) (empty : r.calls = []) (idle : r.queued = [])
    (xs : List Input) : ∃ begun, Served r xs begun := by
  induction xs using List.reverseRecOn with
  | nil => exact ⟨[], by simp [Step.emit, empty, idle, Calls.indices], rfl, by simp⟩
  | append_singleton xs x ih =>
    obtain ⟨begun, h⟩ := ih
    obtain ⟨more, hm⟩ := h.take hr empty x
    exact ⟨_, hm⟩

/-! ## Order of first appearance -/

/-- The pieces of calls in the first choice of a chunk, the repeated ones included. -/
def callDeltas (chunk : Chat.Chunk) : List Chat.ToolCallDelta :=
  chunk.choices.head?.toList.flatMap fun choice => choice.delta.toolCalls.getD []

/-- The indices of the calls that appear before the end of the message, in the order in
which they first appear. -/
def arrivals (actions : List (Action Chat.Chunk)) : List Nat :=
  indicesOf ((heard actions).flatMap callDeltas)

theorem pieces_map_piece (ds : List Chat.ToolCallDelta) : pieces (ds.map .piece) = ds := by
  rw [pieces, List.filterMap_map]
  exact List.filterMap_some

theorem pieces_map_of_none {α : Type} (f : α → Input) (h : ∀ a, (f a).piece? = none) (l : List α) :
    pieces (l.map f) = [] := by
  rw [pieces, List.filterMap_map]
  exact List.filterMap_eq_nil_iff.mpr fun a _ => h a

theorem pieces_chunkInputs (chunk : Chat.Chunk) :
    pieces (chunkInputs chunk) = firstPieces [] (callDeltas chunk) := by
  have hr : pieces [.report chunk.usage] = [] := rfl
  rw [chunkInputs, ← List.singleton_append, pieces_append, hr, List.nil_append, chunkParts,
    callDeltas]
  cases chunk.choices.head? with
  | none => rfl
  | some choice =>
    simp only [Option.toList_some, List.flatMap_singleton, choiceInputs, pieces_append,
      pieces_map_piece, choicePieces]
    rw [pieces_map_of_none _ fun _ => rfl, pieces_map_of_none _ fun _ => rfl,
      pieces_map_of_none _ fun _ => rfl]
    rfl

/-- What has appeared before does not count again. -/
theorem eraseDups_append_cons {a : Nat} {base : List Nat} (h : a ∈ base) (l : List Nat) :
    (base ++ a :: l).eraseDups = (base ++ l).eraseDups := by
  simp [List.eraseDups_append, List.removeAll, h]

/-- Leaving out repeated pieces does not change the order of first appearance. -/
theorem eraseDups_firstPieces (tail : List Nat) : ∀ (ds : List Chat.ToolCallDelta)
    (seen base : List Nat), (∀ i ∈ seen, i ∈ base) →
    (base ++ ((firstPieces seen ds).map (·.index) ++ tail)).eraseDups =
      (base ++ (ds.map (·.index) ++ tail)).eraseDups
  | [], _, _, _ => rfl
  | d :: ds, seen, base, h => by
    unfold firstPieces
    split
    case isTrue hs =>
      rw [eraseDups_firstPieces tail ds seen base h, List.map_cons, List.cons_append,
        eraseDups_append_cons (h _ (by simpa using hs))]
    case isFalse hs =>
      have ih := eraseDups_firstPieces tail ds (d.index :: seen) (base ++ [d.index]) (by
        simp only [List.mem_cons, List.mem_append, List.not_mem_nil, or_false]
        rintro i (rfl | hi)
        · exact .inr rfl
        · exact .inl (h i hi))
      simpa only [List.append_assoc, List.singleton_append, List.map_cons, List.cons_append,
        List.nil_append] using ih

theorem eraseDups_chunks (chunks : List Chat.Chunk) (base : List Nat) :
    (base ++ (pieces (chunks.flatMap chunkInputs)).map (·.index)).eraseDups =
      (base ++ (chunks.flatMap callDeltas).map (·.index)).eraseDups := by
  induction chunks generalizing base with
  | nil => rfl
  | cons chunk chunks ih =>
    simp only [List.flatMap_cons, pieces_append, pieces_chunkInputs, List.map_append]
    rw [eraseDups_firstPieces _ _ [] base (by simp), ← List.append_assoc, ih, List.append_assoc]

theorem indicesOf_inputs (actions : List (Action Chat.Chunk)) :
    indicesOf (pieces (inputs actions)) = arrivals actions :=
  eraseDups_chunks (heard actions) []

/-! ## Whole messages -/

section Whole

variable [Tokenizer]

/-- At the end of the message the calls that wait get their blocks. -/
theorem callStarts_closeMessage (h : AtRest r) (reason : StopReason) : ∃ r',
    Serves r (closeMessage reason r).2 r' r.queued := by
  have hc : Tidy { r with phase := .finishing } := { h.toTidy with }
  obtain ⟨begun, hs⟩ := (settle_moves hc.known).callStarts
  have hq := hs.queue
  rw [settle_fst hc.known, List.append_nil] at hq
  refine ⟨{ r with queued := [] }, (List.append_nil _).symm, ?_, rfl, rfl⟩
  have hp := hs.plates
  have hn : callStarts (Claude.closingEvents (some reason) none r.finalUsage) = [] := rfl
  rw [← hq] at hp
  rw [closeMessage_eq reason h.toTidy, callStarts_append, hn, List.append_nil]
  exact hp

/-- While a message goes from its start to its end, every call whose index appears in the
first choice of a chunk gets one block, and no other block of a call is started. The
blocks come in the order in which the indices first appear. Each carries the id and the
name that the pieces known at its start amount to : those of the first piece that has
both, or else those of the first piece with what it lacks made up. Of several pieces for
one index in one chunk the first counts. A piece that promotes a call emits nothing by
that. -/
theorem run_start_callStarts (model : String) (promptTokens : Nat) (now : Instant)
    (actions : List (Action Chat.Chunk)) {reason : StopReason}
    (stopped : ending actions = .stopped reason) :
    let events := (run actions (start model promptTokens now)).2
    let fresh := opened model promptTokens now
    (arrivals actions).Nodup ∧ (callStarts events).length = (arrivals actions).length ∧
      (∀ k index, (arrivals actions)[k]? = some index →
        (callStarts events)[k]? =
          identity? now (piecesOf index (knownAt fresh k (inputs actions)))) ∧
      ∀ past d, d.index ∈ indicesOf (pieces past) →
        (onCallHead d (feed past fresh).1).2 = [] := by
  intro events fresh
  have hr : AtRest fresh := atRest_opened model promptTokens now
  have hs := hr.feed (inputs actions)
  have hk := feed_knows hr rfl (inputs actions)
  obtain ⟨begun, hb⟩ := exists_served hr rfl rfl (inputs actions)
  obtain ⟨r', hc⟩ := callStarts_closeMessage hs reason
  have ha : arrivals actions = begun ++ (feed (inputs actions) fresh).1.queued := by
    rw [← indicesOf_inputs, ← hk.arrived, hb.arrived]
  have he : callStarts events = callStarts (feed (inputs actions) fresh).2 ++
      callStarts (closeMessage reason (feed (inputs actions) fresh).1).2 := by
    show callStarts (run actions (start model promptTokens now)).2 = _
    rw [events_run_start model promptTokens now stopped, ← callStarts_append]
    rfl
  refine ⟨?_, ?_, fun k index hi => ?_, fun past d known => ?_⟩
  · rw [← indicesOf_inputs, ← hk.arrived]
    exact hs.distinct
  · rw [he, ha, List.length_append, List.length_append, hb.counted, hc.length]
  · rw [ha] at hi
    rw [he]
    rcases Nat.lt_or_ge k begun.length with hl | hl
    · rw [List.getElem?_append_left hl] at hi
      rw [List.getElem?_append_left (hb.counted ▸ hl)]
      exact hb.named k index hi
    · rw [List.getElem?_append_right hl] at hi
      rw [List.getElem?_append_right (hb.counted ▸ hl), hb.counted, hc.getElem? hi, hk.callee?,
        hr.feed_now, knownAt_of_waiting (hb.counted ▸ hl)]
      rfl
  · rw [← (feed_knows hr rfl past).arrived] at known
    rw [onCallHead_of_known known]

end Whole

/-- A chunk with nothing but pieces of calls. -/
def callChunk (ds : List Chat.ToolCallDelta) : Chat.Chunk :=
  ⟨"", "", 0, "", [⟨0, { Chat.Delta.empty with toolCalls := some ds }, none⟩], none⟩

/-- A call waits behind another one, and is promoted before its block starts. -/
def promotedInQueue : List (Action Chat.Chunk) :=
  [.accept (callChunk [⟨7, some "a", true, some (some "f", some "\x7b")⟩]),
    .accept (callChunk [⟨3, some "b", true, none⟩]),
    .accept (callChunk [⟨3, some "c", true, some (some "g", none)⟩]),
    .accept (callChunk [⟨7, none, true, some (none, some "\x7d")⟩]), .finish]

theorem callStarts_promotedInQueue : ending promotedInQueue = .stopped .endTurn ∧
    (callStarts (run promotedInQueue (start "m" 1 ⟨0⟩)).2)[1]? = some ("c", "g") :=
  ⟨rfl, ((run_start_callStarts "m" 1 ⟨0⟩ promotedInQueue rfl).2.2.1 1 3 (by decide +kernel)).trans
    (by decide +kernel)⟩

/-- The second of two pieces for one index in one chunk has the id and the name that the
first one lacks. -/
def repeatedPiece : List (Action Chat.Chunk) :=
  [.accept (callChunk [⟨0, some "a", true, some (some "f", some "\x7b")⟩]),
    .accept (callChunk [⟨1, some "b", true, none⟩, ⟨1, some "c", true, some (some "g", none)⟩]),
    .finish]

/-- It is not looked at : the block, though it is started at the end only, has a name that
was made up. -/
theorem callStarts_repeatedPiece :
    ending repeatedPiece = .stopped .endTurn ∧ (arrivals repeatedPiece)[1]? = some 1 ∧
      (callStarts (feed (inputs repeatedPiece) (opened "m" 1 ⟨0⟩)).2).length = 1 ∧
      identity? ⟨0⟩ (((heard repeatedPiece).flatMap callDeltas).filter fun d => d.index = 1) =
        some ("c", "g") ∧
      (callStarts (run repeatedPiece (start "m" 1 ⟨0⟩)).2)[1]? = some ("b", "tool_1") := by
  decide +kernel

end Relay.Merging

end Switchboard
