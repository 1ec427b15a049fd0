import Mathlib.Tactic.Common
import Switchboard.Proofs.Message.Grammar
import Switchboard.Proofs.Merging.Input

/-!
# The moves of a merging relay

Whatever a relay takes in, it answers by moves of six kinds : it stops the open block,
starts one of text or reasoning, starts the block of the first call that waits, says a
delta of text or reasoning, and passes on a piece of arguments or holds it back
(`Move`). What an input does is to learn from it (`Input.learn`) and then to make moves
(`take_moves`). An invariant of relays is thus checked move by move.

Blocks of text and reasoning, and the stop of a call that still lacks arguments, come
only with moves that may `cut`. Pieces of calls lead to no such move, because a relay at
rest has calls waiting only behind one that lacks arguments (`Rested`).
-/

namespace Switchboard.Relay

open Claude (Event Block Delta Form)

/-- The form of the blocks of a kind. -/
def BlockKind.form : BlockKind → Form
  | .text => .text
  | .thinking => .thinking
  | .call _ => .toolUse

/-! ## Calls by their index -/

namespace Calls

/-- The indices of the calls, in the order they showed up. -/
def indices (calls : Calls) : List Nat := calls.map Prod.fst

theorem indices_modify (calls : Calls) (index : Nat) (f : Call → Call) :
    (calls.modify index f).indices = calls.indices := by
  simp only [indices, modify, List.map_map]
  refine List.map_congr_left fun p _ => ?_
  simp only [Function.comp_apply]
  split <;> rfl

theorem lookup_modify (calls : Calls) (index : Nat) (f : Call → Call) (j : Nat) :
    (calls.modify index f).lookup j =
      if j = index then (calls.lookup j).map f else calls.lookup j := by
  induction calls with
  | nil => simp [modify]
  | cons p calls ih =>
    obtain ⟨i, c⟩ := p
    simp only [modify] at ih
    by_cases hj : j = i
    · subst hj
      by_cases hi : j = index <;> simp [modify, hi]
    · have hb : (j == i) = false := by simpa using hj
      by_cases hi : i = index
      · subst hi
        simp [modify, List.lookup_cons, hb, ih]
      · simp [modify, List.lookup_cons, hb, hi, ih]

theorem lookup_isSome_iff (calls : Calls) (index : Nat) :
    (calls.lookup index).isSome ↔ index ∈ calls.indices := by
  induction calls with
  | nil => simp [indices]
  | cons p calls ih =>
    obtain ⟨i, c⟩ := p
    simp only [indices] at ih
    by_cases hi : index = i
    · simp [indices, hi]
    · have hb : (index == i) = false := by simpa using hi
      simp [indices, List.lookup_cons, hb, hi, ih]

theorem exists_lookup {calls : Calls} {index : Nat} (h : index ∈ calls.indices) :
    ∃ c, calls.lookup index = some c :=
  Option.isSome_iff_exists.mp ((lookup_isSome_iff calls index).mpr h)

theorem lookup_eq_none_iff (calls : Calls) (index : Nat) :
    calls.lookup index = none ↔ index ∉ calls.indices := by
  rw [← lookup_isSome_iff, Option.not_isSome_iff_eq_none]

end Calls

namespace Merging

/-! ## Moves -/

/-- Append a piece to the arguments of a call. -/
def keep (r : Merging) (index : Nat) (s : String) : Merging :=
  { r with calls := r.calls.modify index fun c => { c with arguments := c.arguments ++ s } }

/-- The events that start the block of a call and replay the arguments it has. -/
def callEvents (n : Nat) (c : Call) : List Event :=
  .blockStart n (.toolUse c.id c.name (.object [])) ::
    if c.arguments.isEmpty then [] else [.blockDelta n (.inputJson c.arguments)]

/-- A move, with the events it emits. -/
inductive Move (cut : Bool) : Merging → List Event → Merging → Prop
  | stop {r : Merging} {b : OpenBlock} (isOpen : r.openBlock = some b)
      (fair : cut = true ∨ r.openCallIsWhole? ≠ some false) :
      Move cut r [.blockStop b.index] { r with openBlock := none }
  | start {r : Merging} {kind : BlockKind} {block : Block} (idle : r.openBlock = none)
      (free : cut = true) (plain : kind.form ≠ .toolUse) (fresh : block.form? = some kind.form) :
      Move cut r [.blockStart r.nextIndex block]
        { r with nextIndex := r.nextIndex + 1, openBlock := some ⟨r.nextIndex, kind⟩ }
  | call {r : Merging} {index : Nat} {c : Call} {rest : List Nat} (idle : r.openBlock = none)
      (first : r.queued = index :: rest) (known : r.calls.lookup index = some c) :
      Move cut r (callEvents r.nextIndex c)
        { r with
          nextIndex := r.nextIndex + 1
          openBlock := some ⟨r.nextIndex, .call index⟩
          queued := rest }
  | say {r : Merging} {b : OpenBlock} {delta : Delta} (isOpen : r.openBlock = some b)
      (free : cut = true) (plain : b.kind.form ≠ .toolUse) (fits : delta.form? = some b.kind.form) :
      Move cut r [.blockDelta b.index delta] r
  | grow {r : Merging} {n index : Nat} {s : String}
      (isOpen : r.openBlock = some ⟨n, .call index⟩) :
      Move cut r [.blockDelta n (.inputJson s)] (r.keep index s)
  | hold {r : Merging} {index : Nat} {s : String}
      (notOpen : r.openBlock.map (·.kind) ≠ some (.call index)) : Move cut r [] (r.keep index s)

/-- Moves one after another. -/
inductive Moves (cut : Bool) : Merging → List Event → Merging → Prop
  | refl (r : Merging) : Moves cut r [] r
  | step {r r' r'' : Merging} {xs ys : List Event} (first : Move cut r xs r')
      (more : Moves cut r' ys r'') : Moves cut r (xs ++ ys) r''

variable {cut : Bool} {r r' r'' : Merging} {xs ys : List Event}

theorem Moves.trans (h : Moves cut r xs r') (h' : Moves cut r' ys r'') :
    Moves cut r (xs ++ ys) r'' := by
  induction h with
  | refl r => exact h'
  | step first _ ih =>
    rw [List.append_assoc]
    exact .step first (ih h')

theorem Move.single (h : Move cut r xs r') : Moves cut r xs r' := by
  rw [← List.append_nil xs]
  exact .step h (.refl r')

/-- A property that every move keeps is kept by moves one after another. -/
theorem Moves.preserves {P : Merging → Prop}
    (keeps : ∀ {r xs r'}, Move cut r xs r' → P r → P r') (h : Moves cut r xs r') (hp : P r) :
    P r' := by
  induction h with
  | refl r => exact hp
  | step first _ ih => exact ih (keeps first hp)

/-- Moves do not touch the phase, the text and the usage. -/
theorem Moves.frame (h : Moves cut r xs r') :
    r' = { r with
      nextIndex := r'.nextIndex
      openBlock := r'.openBlock
      calls := r'.calls
      queued := r'.queued } := by
  induction h with
  | refl r => rfl
  | step first _ ih =>
    rw [ih]
    cases first <;> rfl

/-! ## Order of arrival -/

/-- Block numbers go up, the calls that wait are those that arrived last, and an open call
is the one that arrived before them. -/
structure Tidy (r : Merging) : Prop where
  numbered : ∀ b, r.openBlock = some b → r.nextIndex = b.index + 1
  distinct : r.calls.indices.Nodup
  waiting : r.queued <:+ r.calls.indices
  current : ∀ n index, r.openBlock = some ⟨n, .call index⟩ → index :: r.queued <:+ r.calls.indices

/-- At rest, calls wait only behind one that lacks arguments. -/
def Rested (r : Merging) : Prop := r.queued ≠ [] → r.openCallIsWhole? = some false

theorem Tidy.known (h : Tidy r) : ∀ index ∈ r.queued, index ∈ r.calls.indices :=
  fun _ hi => h.waiting.subset hi

@[simp] theorem keep_indices (r : Merging) (index : Nat) (s : String) :
    (r.keep index s).calls.indices = r.calls.indices := by
  simp only [keep, Calls.indices_modify]

@[simp] theorem keep_queued (r : Merging) (index : Nat) (s : String) :
    (r.keep index s).queued = r.queued :=
  rfl

@[simp] theorem keep_openBlock (r : Merging) (index : Nat) (s : String) :
    (r.keep index s).openBlock = r.openBlock :=
  rfl

theorem Tidy.keep (h : Tidy r) (index : Nat) (s : String) : Tidy (r.keep index s) where
  numbered := h.numbered
  distinct := by simpa using h.distinct
  waiting := by simpa using h.waiting
  current := by simpa using h.current

theorem Move.tidy (h : Move cut r xs r') (ht : Tidy r) : Tidy r' := by
  cases h with
  | stop isOpen _ => exact { ht with numbered := nofun, current := nofun }
  | start idle _ plain fresh =>
    refine { ht with numbered := ?_, current := ?_ }
    · rintro b ⟨⟩
      rfl
    · rintro n index ⟨⟩
      exact absurd rfl plain
  | call idle first known =>
    have hw := ht.waiting
    rw [first] at hw
    refine { ht with numbered := ?_, waiting := ?_, current := ?_ }
    · rintro b ⟨⟩
      rfl
    · exact (List.suffix_cons _ _).trans hw
    · rintro n index ⟨⟩
      exact hw
  | say isOpen _ plain fits => exact ht
  | grow isOpen => exact ht.keep _ _
  | hold notOpen => exact ht.keep _ _

theorem Moves.tidy (h : Moves cut r xs r') (ht : Tidy r) : Tidy r' :=
  h.preserves Move.tidy ht

/-! ## Steps as moves -/

theorem stopBlock_fst (r : Merging) : (stopBlock r).1 = { r with openBlock := none } := by
  unfold stopBlock
  cases h : r.openBlock with
  | none =>
    show r = { r with openBlock := none }
    rw [← h]
  | some b => rfl

theorem stopBlock_moves (cut : Bool) (r : Merging)
    (fair : cut = true ∨ r.openCallIsWhole? ≠ some false) :
    Moves cut r (stopBlock r).2 (stopBlock r).1 := by
  unfold stopBlock
  cases h : r.openBlock with
  | none => exact .refl r
  | some b => exact (Move.stop h fair).single

/-- The events that stop the open block do not depend on the queue. -/
theorem stopBlock_queued (r : Merging) (q : List Nat) :
    (stopBlock { r with queued := q }).2 = (stopBlock r).2 := by
  unfold stopBlock
  cases r.openBlock <;> rfl

/-- Open the next block for a call. -/
def openCall (r : Merging) (index : Nat) : Merging :=
  { r with nextIndex := r.nextIndex + 1, openBlock := some ⟨r.nextIndex, .call index⟩ }

theorem startCall_eq {index : Nat} {c : Call} (known : r.calls.lookup index = some c) :
    startCall index r = (r.openCall index, callEvents r.nextIndex c) := by
  simp only [startCall, known]
  by_cases h : c.arguments.isEmpty = true <;>
    simp [h, Step.seq_apply, startBlock, emitDelta, callEvents, Step.emit, openCall]

/-- Flushing numbers the blocks of the waiting calls and leaves none of them open. -/
theorem flush_fst : ∀ (queue : List Nat) (r : Merging), r.openBlock = none →
    (∀ index ∈ queue, index ∈ r.calls.indices) →
    (flush queue r).1 = { r with nextIndex := r.nextIndex + queue.length }
  | [], _, _, _ => rfl
  | index :: queue, r, idle, known => by
    obtain ⟨c, hc⟩ := Calls.exists_lookup (known index List.mem_cons_self)
    have ih := flush_fst queue { r with nextIndex := r.nextIndex + 1, openBlock := none } rfl
      fun i hi => known i (List.mem_cons_of_mem index hi)
    simp only [flush, Step.seq_apply, startCall_eq hc, stopBlock_fst, openCall, ih]
    simp only [List.length_cons, idle, Nat.add_assoc, Nat.add_comm 1]

theorem flush_moves : ∀ (queue : List Nat) (r : Merging), r.openBlock = none → r.queued = [] →
    (∀ index ∈ queue, index ∈ r.calls.indices) →
    Moves true { r with queued := queue } (flush queue r).2 (flush queue r).1
  | [], r, _, hq, _ => by
    have hr : { r with queued := [] } = r := by rw [← hq]
    rw [hr]
    exact .refl r
  | index :: queue, r, idle, hq, known => by
    obtain ⟨c, hc⟩ := Calls.exists_lookup (known index List.mem_cons_self)
    have ih := flush_moves queue { r with nextIndex := r.nextIndex + 1, openBlock := none } rfl hq
      fun i hi => known i (List.mem_cons_of_mem index hi)
    simp only [flush, Step.seq_apply, startCall_eq hc]
    exact .step (.call idle rfl hc) (.step (.stop rfl (.inl rfl)) ih)

theorem settle_fst (known : ∀ index ∈ r.queued, index ∈ r.calls.indices) :
    (settle r).1 = { r with
      nextIndex := r.nextIndex + r.queued.length
      openBlock := none
      queued := [] } := by
  simp only [settle, Step.seq_apply, stopBlock_fst]
  exact flush_fst r.queued _ rfl known

theorem settle_moves (known : ∀ index ∈ r.queued, index ∈ r.calls.indices) :
    Moves true r (settle r).2 (settle r).1 := by
  simp only [settle, Step.seq_apply, stopBlock_fst, stopBlock_queued]
  refine (stopBlock_moves true r (.inl rfl)).trans ?_
  rw [stopBlock_fst]
  exact flush_moves r.queued { r with openBlock := none, queued := [] } rfl rfl known

/-- With no call waiting, to settle is to stop the open block. -/
theorem settle_eq_stopBlock (hq : r.queued = []) : settle r = stopBlock r := by
  have hr : { r with queued := [] } = r := by rw [← hq]
  rw [settle, hq, hr]
  exact congrFun (Step.seq_emit_nil stopBlock) r

/-! ## Going on to the next call -/

theorem openCallIsWhole?_of_call {n index : Nat} (h : r.openBlock = some ⟨n, .call index⟩) :
    r.openCallIsWhole? = some ((r.arguments? index).any isWholeObject) := by
  simp only [openCallIsWhole?, h]

theorem startCall_calls (index : Nat) (r : Merging) : (startCall index r).1.calls = r.calls := by
  cases h : r.calls.lookup index with
  | none => simp only [startCall, h]
  | some c =>
    rw [startCall_eq h]
    rfl

theorem advanceFrom_calls : ∀ (queue : List Nat) (r : Merging),
    (advanceFrom queue r).1.calls = r.calls
  | [], _ => rfl
  | index :: queue, r => by
    unfold advanceFrom
    split
    · simp only [Step.all_cons, Step.all_nil, Step.seq_emit_nil, Step.seq_apply]
      rw [advanceFrom_calls queue, startCall_calls, stopBlock_fst]
    · rfl

/-- Where the open call is whole, the next one takes its place. -/
theorem advanceFrom_cons {index : Nat} {c : Call} (queue : List Nat)
    (whole : r.openCallIsWhole? = some true) (known : r.calls.lookup index = some c) :
    advanceFrom (index :: queue) r = ((advanceFrom queue (r.openCall index)).1,
      (stopBlock r).2 ++
        (callEvents r.nextIndex c ++ (advanceFrom queue (r.openCall index)).2)) := by
  have hc : ({ r with openBlock := none } : Merging).calls.lookup index = some c := known
  simp only [advanceFrom, if_pos whole, Step.all_cons, Step.all_nil, Step.seq_emit_nil,
    Step.seq_apply, stopBlock_fst, startCall_eq hc]
  rfl

theorem advanceFrom_moves : ∀ (queue : List Nat) (r : Merging),
    (∀ index ∈ queue, index ∈ r.calls.indices) →
    Moves false { r with queued := queue } (advanceFrom queue r).2 (advanceFrom queue r).1
  | [], r, _ => .refl { r with queued := [] }
  | index :: queue, r, known => by
    by_cases whole : r.openCallIsWhole? = some true
    · obtain ⟨c, hc⟩ := Calls.exists_lookup (known index List.mem_cons_self)
      have ih := advanceFrom_moves queue (r.openCall index)
        fun i hi => known i (List.mem_cons_of_mem index hi)
      have hs : Moves false { r with queued := index :: queue } (stopBlock r).2
          { r with openBlock := none, queued := index :: queue } := by
        have h := stopBlock_moves false { r with queued := index :: queue }
          (.inr fun h => absurd (whole.symm.trans h) (by simp))
        rwa [stopBlock_fst, stopBlock_queued] at h
      rw [advanceFrom_cons queue whole hc]
      exact hs.trans (.step (.call rfl rfl hc) ih)
    · simp only [advanceFrom, if_neg whole]
      exact .refl _

theorem advanceFrom_rested : ∀ (queue : List Nat) (r : Merging),
    (∃ n index, r.openBlock = some ⟨n, .call index⟩) →
    (∀ index ∈ queue, index ∈ r.calls.indices) → Rested (advanceFrom queue r).1
  | [], _, _, _ => fun h => absurd rfl h
  | index :: queue, r, isCall, known => by
    by_cases whole : r.openCallIsWhole? = some true
    · obtain ⟨c, hc⟩ := Calls.exists_lookup (known index List.mem_cons_self)
      rw [advanceFrom_cons queue whole hc]
      exact advanceFrom_rested queue _ ⟨_, _, rfl⟩ fun i hi =>
        known i (List.mem_cons_of_mem index hi)
    · obtain ⟨n, i, hi⟩ := isCall
      simp only [advanceFrom, if_neg whole]
      intro _
      have h := openCallIsWhole?_of_call hi
      rw [h] at whole
      refine h.trans (congrArg some (Bool.eq_false_iff.mpr fun hw => whole (congrArg some hw)))

/-! ## Text and reasoning -/

theorem Rested.queued_eq_nil {b : OpenBlock} (h : Rested r) (isOpen : r.openBlock = some b)
    (plain : b.kind.form ≠ .toolUse) : r.queued = [] := by
  by_contra hq
  have hw := h hq
  obtain ⟨n, kind⟩ := b
  cases kind with
  | text | thinking => simp [openCallIsWhole?, isOpen] at hw
  | call index => exact plain rfl

theorem emitDelta_eq {b : OpenBlock} (isOpen : r.openBlock = some b) (delta : Delta) :
    emitDelta delta r = (r, [.blockDelta b.index delta]) := by
  simp only [emitDelta, isOpen]

theorem ensureBlock_moves (kind : BlockKind) (block : Block) (plain : kind.form ≠ .toolUse)
    (fresh : block.form? = some kind.form) (known : ∀ index ∈ r.queued, index ∈ r.calls.indices) :
    Moves true r (ensureBlock kind block r).2 (ensureBlock kind block r).1 := by
  unfold ensureBlock
  split
  · exact .refl r
  · have hs := settle_moves known
    simp only [Step.seq_apply]
    rw [settle_fst known] at hs ⊢
    exact hs.trans (Move.start rfl rfl plain fresh).single

/-- A block of the kind is open then, and no call waits. -/
theorem ensureBlock_fst (kind : BlockKind) (block : Block) (plain : kind.form ≠ .toolUse)
    (known : ∀ index ∈ r.queued, index ∈ r.calls.indices) (hr : Rested r) :
    ∃ n, (ensureBlock kind block r).1.openBlock = some ⟨n, kind⟩ ∧
      (ensureBlock kind block r).1.queued = [] := by
  unfold ensureBlock
  split
  case isTrue h =>
    obtain ⟨⟨n, k⟩, hb, hk⟩ := Option.map_eq_some_iff.mp h
    obtain rfl : k = kind := hk
    exact ⟨n, hb, hr.queued_eq_nil hb plain⟩
  case isFalse h =>
    simp only [Step.seq_apply]
    rw [settle_fst known]
    exact ⟨_, rfl, rfl⟩

theorem onText_moves (s : String) (ht : Tidy r) (hr : Rested r) :
    Moves true { r with text := r.text ++ s } (onText s r).2 (onText s r).1 ∧
      Rested (onText s r).1 := by
  obtain ⟨n, hb, hq⟩ := ensureBlock_fst (r := { r with text := r.text ++ s }) .text (.plain "")
    (by decide) ht.known hr
  have hm := ensureBlock_moves (r := { r with text := r.text ++ s }) .text (.plain "")
    (by decide) rfl ht.known
  simp only [onText, Step.seq_apply, emitDelta_eq hb]
  exact ⟨hm.trans (Move.say hb rfl (by simp [BlockKind.form]) rfl).single, fun h => absurd hq h⟩

theorem sealBlock_moves {n : Nat} (isOpen : r.openBlock = some ⟨n, .thinking⟩)
    (signature : Option String) :
    let last := Step.forSome signature fun s => Step.seq (emitDelta (.signature s)) stopBlock
    Moves true r (last r).2 (last r).1 ∧ (last r).1.queued = r.queued := by
  cases signature with
  | none => exact ⟨.refl r, rfl⟩
  | some s =>
    simp only [Step.forSome, Step.seq_apply, emitDelta_eq isOpen]
    have hm : Moves true r [.blockDelta n (.signature s)] r :=
      (Move.say isOpen rfl (by simp [BlockKind.form]) rfl).single
    refine ⟨hm.trans (stopBlock_moves true r (.inl rfl)), ?_⟩
    rw [stopBlock_fst]

theorem onThinking_moves (content signature : Option String) (ht : Tidy r) (hr : Rested r) :
    Moves true r (onThinking content signature r).2 (onThinking content signature r).1 ∧
      Rested (onThinking content signature r).1 := by
  unfold onThinking
  split
  · exact ⟨.refl r, hr⟩
  · obtain ⟨n, hb, hq⟩ := ensureBlock_fst (r := r) .thinking (.thinking "" none)
      (by decide) ht.known hr
    have hm := ensureBlock_moves (r := r) .thinking (.thinking "" none)
      (by decide) rfl ht.known
    obtain ⟨hs, hsq⟩ := sealBlock_moves hb (Chat.nonEmpty? signature)
    simp only [Step.all_cons, Step.all_nil, Step.seq_emit_nil, Step.seq_apply]
    cases hc : Chat.nonEmpty? content with
    | none => exact ⟨hm.trans hs, fun h => absurd (hsq.trans hq) h⟩
    | some s =>
      simp only [Step.forSome, emitDelta_eq hb]
      exact ⟨hm.trans ((Move.say hb rfl (by simp [BlockKind.form]) rfl).single.trans hs),
        fun h => absurd (hsq.trans hq) h⟩

/-! ## Pieces of calls -/

/-- Add a call that shows up for the first time. -/
def addCall (r : Merging) (d : Chat.ToolCallDelta) : Merging :=
  { r with calls := r.calls ++ [(d.index, newCall r.now d)] }

/-- Let a call wait behind those that wait. -/
def enqueue (r : Merging) (index : Nat) : Merging := { r with queued := r.queued ++ [index] }

/-- Learn who is called. A new call waits. -/
def learnCall (r : Merging) (d : Chat.ToolCallDelta) : Merging :=
  match r.calls.lookup d.index with
  | some _ => { r with calls := r.calls.modify d.index (Call.promote d) }
  | none => (r.addCall d).enqueue d.index

@[simp] theorem promote_arguments (d : Chat.ToolCallDelta) (c : Call) :
    (Call.promote d c).arguments = c.arguments := by
  unfold Call.promote
  split <;> rfl

theorem learnCall_of_known {d : Chat.ToolCallDelta} (known : d.index ∈ r.calls.indices) :
    r.learnCall d = { r with calls := r.calls.modify d.index (Call.promote d) } := by
  obtain ⟨c, hc⟩ := Calls.exists_lookup known
  simp only [learnCall, hc]

theorem learnCall_of_new {d : Chat.ToolCallDelta} (new : d.index ∉ r.calls.indices) :
    r.learnCall d = (r.addCall d).enqueue d.index := by
  simp only [learnCall, (Calls.lookup_eq_none_iff _ _).mpr new]

theorem addCall_indices (r : Merging) (d : Chat.ToolCallDelta) :
    (r.addCall d).calls.indices = r.calls.indices ++ [d.index] := by
  simp [addCall, Calls.indices]

theorem learnCall_tidy (ht : Tidy r) (d : Chat.ToolCallDelta) : Tidy (r.learnCall d) := by
  by_cases known : d.index ∈ r.calls.indices
  · rw [learnCall_of_known known]
    exact
      { numbered := ht.numbered
        distinct := by simpa only [Calls.indices_modify] using ht.distinct
        waiting := by simpa only [Calls.indices_modify] using ht.waiting
        current := by simpa only [Calls.indices_modify] using ht.current }
  · rw [learnCall_of_new known]
    refine { numbered := ht.numbered, distinct := ?_, waiting := ?_, current := ?_ }
    · show (r.addCall d).calls.indices.Nodup
      rw [addCall_indices]
      refine List.nodup_append.mpr ⟨ht.distinct, by simp, ?_⟩
      rintro i hi j hj rfl
      exact known (List.mem_singleton.mp hj ▸ hi)
    · show r.queued ++ [d.index] <:+ (r.addCall d).calls.indices
      rw [addCall_indices]
      exact List.suffix_append_self_iff.mpr ht.waiting
    · intro n index hb
      show index :: r.queued ++ [d.index] <:+ (r.addCall d).calls.indices
      rw [addCall_indices]
      exact List.suffix_append_self_iff.mpr (ht.current n index hb)

/-- What is known of the open call decides whether it is whole. -/
theorem openCallIsWhole?_congr (hb : r'.openBlock = r.openBlock)
    (ha : ∀ n index, r.openBlock = some ⟨n, .call index⟩ →
      r'.arguments? index = r.arguments? index) :
    r'.openCallIsWhole? = r.openCallIsWhole? := by
  simp only [openCallIsWhole?, hb]
  cases h : r.openBlock with
  | none => rfl
  | some b =>
    obtain ⟨n, kind⟩ := b
    cases kind with
    | text | thinking => rfl
    | call index => simp only [ha n index h]

theorem Rested.congr (hr : Rested r) (hb : r'.openBlock = r.openBlock) (hq : r'.queued = r.queued)
    (ha : ∀ n index, r.openBlock = some ⟨n, .call index⟩ →
      r'.arguments? index = r.arguments? index) :
    Rested r' := by
  intro h
  rw [hq] at h
  rw [openCallIsWhole?_congr hb ha]
  exact hr h

theorem arguments?_promote (d : Chat.ToolCallDelta) (index : Nat) :
    arguments? { r with calls := r.calls.modify d.index (Call.promote d) } index =
      r.arguments? index := by
  simp only [arguments?, Calls.lookup_modify]
  split
  · cases r.calls.lookup index <;> simp
  · rfl

theorem arguments?_keep (index : Nat) (s : String) (j : Nat) :
    (r.keep index s).arguments? j =
      if j = index then (r.arguments? j).map (· ++ s) else r.arguments? j := by
  simp only [arguments?, keep, Calls.lookup_modify]
  split
  · cases r.calls.lookup j <;> rfl
  · rfl

/-- A new call does not change what is known of the others. -/
theorem arguments?_addCall (d : Chat.ToolCallDelta) {index : Nat} (h : index ∈ r.calls.indices) :
    (r.addCall d).arguments? index = r.arguments? index := by
  obtain ⟨c, hc⟩ := Calls.exists_lookup h
  simp only [arguments?, addCall, List.lookup_append, hc, Option.some_or]

theorem lookup_addCall {d : Chat.ToolCallDelta} (new : d.index ∉ r.calls.indices) :
    (r.addCall d).calls.lookup d.index = some (newCall r.now d) := by
  simp [addCall, List.lookup_append, (Calls.lookup_eq_none_iff _ _).mpr new]

theorem onCallHead_of_known {d : Chat.ToolCallDelta} (known : d.index ∈ r.calls.indices) :
    onCallHead d r = (r.learnCall d, []) := by
  rw [learnCall_of_known known]
  obtain ⟨c, hc⟩ := Calls.exists_lookup known
  simp only [onCallHead, hc]

/-- A new call waits, or its block starts at once. -/
theorem onCallHead_of_new {d : Chat.ToolCallDelta} (new : d.index ∉ r.calls.indices) (ht : Tidy r)
    (hr : Rested r) :
    (r.openCallIsWhole? = some false ∧ onCallHead d r = (r.learnCall d, [])) ∨
      (r.openCallIsWhole? ≠ some false ∧ r.queued = [] ∧
        onCallHead d r = ((r.addCall d).openCall d.index,
          (stopBlock r).2 ++ callEvents r.nextIndex (newCall r.now d))) := by
  have hw : (r.addCall d).openCallIsWhole? = r.openCallIsWhole? :=
    openCallIsWhole?_congr rfl fun n index hb =>
      arguments?_addCall d ((ht.current n index hb).subset List.mem_cons_self)
  have hh : onCallHead d r = if (r.addCall d).openCallIsWhole? = some false then
      ((r.addCall d).enqueue d.index, [])
      else settle.seq (startCall d.index) (r.addCall d) := by
    simp only [onCallHead, (Calls.lookup_eq_none_iff _ _).mpr new]
    rfl
  rw [hw] at hh
  by_cases h : r.openCallIsWhole? = some false
  · rw [if_pos h] at hh
    exact .inl ⟨h, hh.trans (by rw [learnCall_of_new new])⟩
  · have hq : r.queued = [] := by
      by_contra hq
      exact h (hr hq)
    have hs : settle (r.addCall d) =
        ({ r.addCall d with openBlock := none }, (stopBlock r).2) := by
      rw [settle_eq_stopBlock (r := r.addCall d) hq]
      refine Prod.ext (stopBlock_fst _) ?_
      unfold stopBlock
      cases hb : r.openBlock <;> simp [addCall, hb]
    have hc : ({ r.addCall d with openBlock := none } : Merging).calls.lookup d.index =
        some (newCall r.now d) := lookup_addCall new
    rw [if_neg h, Step.seq_apply, hs, startCall_eq hc] at hh
    exact .inr ⟨h, hq, hh⟩

theorem onCallHead_moves (d : Chat.ToolCallDelta) (ht : Tidy r) (hr : Rested r) :
    Moves false (r.learnCall d) (onCallHead d r).2 (onCallHead d r).1 ∧
      Rested (onCallHead d r).1 := by
  by_cases known : d.index ∈ r.calls.indices
  · rw [onCallHead_of_known known]
    refine ⟨.refl _, ?_⟩
    rw [learnCall_of_known known]
    exact hr.congr rfl rfl fun _ index _ => arguments?_promote d index
  · have current : ∀ n index, r.openBlock = some ⟨n, .call index⟩ →
        (r.addCall d).arguments? index = r.arguments? index := fun n index hb =>
      arguments?_addCall d ((ht.current n index hb).subset List.mem_cons_self)
    have hw : (r.learnCall d).openCallIsWhole? = r.openCallIsWhole? := by
      rw [learnCall_of_new known]
      exact openCallIsWhole?_congr rfl current
    obtain ⟨h, he⟩ | ⟨h, hq, he⟩ := onCallHead_of_new known ht hr
    · rw [he]
      exact ⟨.refl _, fun _ => hw.trans h⟩
    · rw [he]
      refine ⟨?_, fun h => absurd hq h⟩
      have hs := stopBlock_moves false (r.learnCall d) (.inr fun hf => h (hw ▸ hf))
      rw [stopBlock_fst, learnCall_of_new known] at hs
      have hb : (stopBlock ((r.addCall d).enqueue d.index)).2 = (stopBlock r).2 := by
        unfold stopBlock
        cases hb : r.openBlock <;> simp [enqueue, addCall, hb]
      have hc : Moves false { (r.addCall d).enqueue d.index with openBlock := none }
          (callEvents r.nextIndex (newCall r.now d))
          { (r.addCall d).openCall d.index with queued := [] } :=
        (Move.call (r := { (r.addCall d).enqueue d.index with openBlock := none }) rfl
          (congrArg (· ++ [d.index]) hq) (lookup_addCall known)).single
      have hn : { (r.addCall d).openCall d.index with queued := [] } =
          (r.addCall d).openCall d.index := by
        rw [← hq]
        rfl
      rw [hb] at hs
      rw [hn] at hc
      rw [learnCall_of_new known]
      exact hs.trans hc

theorem openBlock_of_kind {kind : BlockKind} (h : r.openBlock.map (·.kind) = some kind) :
    ∃ n, r.openBlock = some ⟨n, kind⟩ := by
  obtain ⟨⟨n, k⟩, hb, rfl⟩ := Option.map_eq_some_iff.mp h
  exact ⟨n, hb⟩

theorem onArguments_eq (index : Nat) (s : String) (r : Merging) :
    onArguments index s r = if r.openBlock.map (·.kind) = some (.call index) then
      Step.seq (emitDelta (.inputJson s)) advance (r.keep index s)
    else (r.keep index s, []) :=
  rfl

theorem onArguments_moves (index : Nat) (s : String) (ht : Tidy r) (hr : Rested r) :
    Moves false r (onArguments index s r).2 (onArguments index s r).1 ∧
      Rested (onArguments index s r).1 := by
  have known := (ht.keep index s).known
  rw [onArguments_eq]
  split
  case isTrue h =>
    obtain ⟨n, hb⟩ := openBlock_of_kind h
    have hd := emitDelta_eq (r := r.keep index s) hb (.inputJson s)
    simp only [Step.seq_apply, hd]
    exact ⟨.step (.grow hb) (advanceFrom_moves _ (r.keep index s) known),
      advanceFrom_rested _ _ ⟨n, index, hb⟩ known⟩
  case isFalse h =>
    refine ⟨(Move.hold h).single, hr.congr rfl rfl fun n i hb => ?_⟩
    rw [arguments?_keep, if_neg]
    rintro rfl
    exact h (by rw [hb]; rfl)

theorem onCall_moves (d : Chat.ToolCallDelta) (ht : Tidy r) (hr : Rested r) :
    Moves false (r.learnCall d) (onCall d r).2 (onCall d r).1 ∧ Rested (onCall d r).1 := by
  obtain ⟨hm, hr'⟩ := onCallHead_moves d ht hr
  simp only [onCall, Step.seq_apply]
  cases Chat.nonEmpty? d.arguments? with
  | none => exact ⟨by simpa [Step.forSome, Step.emit] using hm, hr'⟩
  | some s =>
    obtain ⟨hm', hr''⟩ := onArguments_moves d.index s (hm.tidy (learnCall_tidy ht d)) hr'
    exact ⟨hm.trans hm', hr''⟩

/-! ## Inputs as moves -/

/-- What a relay learns from an input before it moves. -/
def Input.learn (r : Merging) : Input → Merging
  | report usage => { r with lastUsage := usage.or r.lastUsage }
  | thinking _ _ => r
  | text s => { r with text := r.text ++ s }
  | piece d => r.learnCall d

/-- Whether an input may cut a call short. -/
def Input.cuts : Input → Bool
  | thinking _ _ | text _ => true
  | report _ | piece _ => false

theorem Input.learn_tidy (ht : Tidy r) (x : Input) : Tidy (x.learn r) := by
  cases x with
  | report usage => exact { ht with }
  | thinking content signature => exact ht
  | text s => exact { ht with }
  | piece d => exact learnCall_tidy ht d

/-- An input is learnt and answered by moves, and leaves the relay at rest. -/
theorem Input.take_moves (x : Input) (ht : Tidy r) (hr : Rested r) :
    Moves x.cuts (x.learn r) (x.take r).2 (x.take r).1 ∧ Rested (x.take r).1 := by
  cases x with
  | report usage => exact ⟨.refl _, hr⟩
  | thinking content signature => exact onThinking_moves content signature ht hr
  | text s => exact onText_moves s ht hr
  | piece d => exact onCall_moves d ht hr

theorem Input.take_tidy (x : Input) (ht : Tidy r) (hr : Rested r) : Tidy (x.take r).1 :=
  (x.take_moves ht hr).1.tidy (x.learn_tidy ht)

end Merging

end Switchboard.Relay
