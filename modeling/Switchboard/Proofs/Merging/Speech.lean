import Switchboard.Proofs.Merging.Agreement
import Switchboard.Proofs.Merging.Fidelity
import Switchboard.Proofs.Message.Utterance

/-!
# What is said passes through

Text, reasoning and signatures reach the client as they came, in order, whatever calls of
tools come between. In which blocks they do depends on nothing else than what is said and
which calls show up : a block goes on while the same kind of thing is said, and ends with
a signature and with the first piece of a call. So a count of blocks that knows no more
than that (`Count`) gives every utterance the number of its block (`utterances_run_start`).
What a relay does for one input agrees with the count (`Input.take_utters`), because the
number of its next block counts the calls that wait. From that follow the order of what is
said, the place of signatures, and when two neighbours share a block (`run_start_utters`).
-/

namespace Switchboard.Relay.Merging

open Claude (Block Delta Event Form IsSealed Place StopReason utterances)

/-! ## What chunks bring up -/

/-- What a chunk says : reasoning, a signature and text of its first choice, unless empty. -/
def chunkUtterances (chunk : Chat.Chunk) : List Delta :=
  chunk.choices.head?.toList.flatMap fun choice =>
    (Chat.nonEmpty? choice.delta.reasoningContent).toList.map .thinking ++
      (Chat.nonEmpty? (choice.delta.thinking.bind (·.content))).toList.map .thinking ++
      (Chat.nonEmpty? (choice.delta.thinking.bind (·.signature))).toList.map .signature ++
      (Chat.nonEmpty? choice.delta.content).toList.map .text

/-- Something is said, or a piece of a call comes. -/
inductive Occurrence where
  | said (delta : Delta)
  | called (index : Nat)
  deriving DecidableEq

/-- What chunks bring up, in order. -/
def occurrences (chunks : List Chat.Chunk) : List Occurrence :=
  chunks.flatMap fun chunk =>
    (chunkUtterances chunk).map .said ++ (callDeltas chunk).map fun d => .called d.index

/-- The delta of what is said. -/
def Occurrence.delta? : Occurrence → Option Delta
  | said delta => some delta
  | called _ => none

theorem deltas_occurrences (chunks : List Chat.Chunk) :
    (occurrences chunks).filterMap Occurrence.delta? = chunks.flatMap chunkUtterances := by
  have hs : (Occurrence.delta? ∘ Occurrence.said) = some := rfl
  have hc : (Occurrence.delta? ∘ fun d : Chat.ToolCallDelta => .called d.index) =
      fun _ => none := rfl
  rw [occurrences, List.filterMap_flatMap]
  refine List.flatMap_congr fun chunk _ => ?_
  rw [List.filterMap_append, List.filterMap_map, List.filterMap_map, hs, hc, List.filterMap_some,
    List.filterMap_none, List.append_nil]

/-! ## A count of blocks -/

/-- The number of the next block, the form of what is being said, and the calls that have
shown up. -/
@[ext] structure Count where
  next : Nat
  form : Option Form
  known : List Nat

namespace Count

/-- The block in which something is said. -/
def blockFor (c : Count) (delta : Delta) : Nat :=
  if delta.form? = c.form then c.next - 1 else c.next

/-- A signature seals its block, and a new call ends what is being said and takes a block. -/
def after (c : Count) : Occurrence → Count
  | .said (.signature s) => { c with next := c.blockFor (.signature s) + 1, form := none }
  | .said delta => { c with next := c.blockFor delta + 1, form := delta.form? }
  | .called index =>
    if index ∈ c.known then c else ⟨c.next + 1, none, c.known ++ [index]⟩

/-- What is said, with the numbers of the blocks. -/
def number (c : Count) : List Occurrence → List (Nat × Delta)
  | [] => []
  | .said delta :: rest => (c.blockFor delta, delta) :: (c.after (.said delta)).number rest
  | .called index :: rest => (c.after (.called index)).number rest

variable (c : Count) (xs ys : List Occurrence) (indices : List Nat)

theorem number_append : c.number (xs ++ ys) = c.number xs ++ (xs.foldl after c).number ys := by
  induction xs generalizing c with
  | nil => rfl
  | cons x xs ih =>
    cases x with
    | said delta => exact congrArg _ (ih (c.after (.said delta)))
    | called index => exact ih (c.after (.called index))

theorem number_snd : (c.number xs).map Prod.snd = xs.filterMap Occurrence.delta? := by
  induction xs generalizing c with
  | nil => rfl
  | cons x xs ih =>
    cases x with
    | said delta => exact congrArg _ (ih (c.after (.said delta)))
    | called index => exact ih (c.after (.called index))

theorem number_called : c.number (indices.map .called) = [] := by
  induction indices generalizing c with
  | nil => rfl
  | cons index indices ih => exact ih (c.after (.called index))

theorem after_of_known {c : Count} {index : Nat} (h : index ∈ c.known) :
    c.after (.called index) = c :=
  if_pos h

theorem after_of_new {c : Count} {index : Nat} (h : index ∉ c.known) :
    c.after (.called index) = ⟨c.next + 1, none, c.known ++ [index]⟩ :=
  if_neg h

theorem after_said_known (delta : Delta) : (c.after (.said delta)).known = c.known := by
  cases delta <;> rfl

theorem mem_known (index : Nat) :
    index ∈ (xs.foldl after c).known ↔ index ∈ c.known ∨ .called index ∈ xs := by
  induction xs generalizing c with
  | nil => simp
  | cons x xs ih =>
    rw [List.foldl_cons, ih, List.mem_cons]
    cases x with
    | said delta => simp [after_said_known]
    | called j =>
      by_cases hj : j ∈ c.known
      · rw [after_of_known hj]
        constructor
        · exact Or.imp_right .inr
        · rintro (h | ⟨⟨⟩⟩ | h)
          exacts [.inl h, .inl hj, .inr h]
      · rw [after_of_new hj, List.mem_append, List.mem_singleton, or_assoc,
          Occurrence.called.injEq]

/-- Calls that are known change nothing. -/
theorem foldl_of_known {c : Count} {indices : List Nat} (h : ∀ index ∈ indices, index ∈ c.known) :
    (indices.map .called).foldl after c = c := by
  induction indices with
  | nil => rfl
  | cons index indices ih =>
    obtain ⟨hi, hr⟩ := List.forall_mem_cons.mp h
    rw [List.map_cons, List.foldl_cons, after_of_known hi, ih hr]

theorem foldl_next_le : c.next ≤ ((indices.map .called).foldl after c).next := by
  induction indices generalizing c with
  | nil => exact Nat.le_refl _
  | cons index indices ih =>
    rw [List.map_cons, List.foldl_cons]
    by_cases hi : index ∈ c.known
    · rw [after_of_known hi]
      exact ih c
    · rw [after_of_new hi]
      exact Nat.le_of_succ_le (ih ⟨c.next + 1, none, _⟩)

theorem foldl_form {c : Count} (h : c.form = none) (indices : List Nat) :
    ((indices.map .called).foldl after c).form = none := by
  induction indices generalizing c with
  | nil => exact h
  | cons index indices ih =>
    rw [List.map_cons, List.foldl_cons]
    by_cases hi : index ∈ c.known
    · rw [after_of_known hi]
      exact ih h
    · rw [after_of_new hi]
      exact ih rfl

/-- A new call takes a block, and nothing is being said then. -/
theorem foldl_of_new {c : Count} {indices : List Nat} {index : Nat} (hi : index ∈ indices)
    (new : index ∉ c.known) : c.next < ((indices.map .called).foldl after c).next ∧
      ((indices.map .called).foldl after c).form = none := by
  induction indices with
  | nil => cases hi
  | cons j indices ih =>
    rw [List.map_cons, List.foldl_cons]
    by_cases hj : j ∈ c.known
    · rw [after_of_known hj]
      refine ih ((List.mem_cons.mp hi).resolve_left ?_)
      rintro rfl
      exact new hj
    · rw [after_of_new hj]
      exact ⟨foldl_next_le ⟨c.next + 1, none, _⟩ indices, foldl_form rfl indices⟩

/-- Of the pieces of a call only the first one counts. -/
theorem foldl_firstPieces (seen : List Nat) (ds : List Chat.ToolCallDelta) {c : Count}
    (h : ∀ index ∈ seen, index ∈ c.known) :
    ((firstPieces seen ds).map fun d => Occurrence.called d.index).foldl after c =
      (ds.map fun d => Occurrence.called d.index).foldl after c := by
  induction ds generalizing seen c with
  | nil => rfl
  | cons d ds ih =>
    rw [List.map_cons, List.foldl_cons, firstPieces]
    split
    case isTrue hs =>
      rw [after_of_known (h d.index (by simpa using hs)), ih seen h]
    case isFalse hs =>
      rw [List.map_cons, List.foldl_cons]
      refine ih _ (List.forall_mem_cons.mpr ⟨?_, fun index hi => ?_⟩)
      · exact (mem_known c [.called d.index] d.index).mpr (.inr List.mem_cons_self)
      · exact (mem_known c [.called d.index] index).mpr (.inl (h index hi))

end Count

/-! ## What a relay says -/

variable {r r' r'' : Merging} {xs ys : List Event} {os os' : List Occurrence}

/-- The form of what is being said in a block. -/
def spokenForm? : BlockKind → Option Form
  | .text => some .text
  | .thinking => some .thinking
  | .call _ => none

/-- The count of a relay : calls that wait have their numbers. -/
def count (r : Merging) : Count where
  next := r.nextIndex + r.queued.length
  form := r.openBlock.bind fun b => spokenForm? b.kind
  known := r.calls.indices

/-- From one relay to the next, events say what the count of the relay gives for what has
come up. -/
structure Utters (r : Merging) (xs : List Event) (r' : Merging) (os : List Occurrence) : Prop where
  said : utterances xs = r.count.number os
  counted : r'.count = os.foldl Count.after r.count
  isSealed : IsSealed xs

theorem Utters.refl (r : Merging) : Utters r [] r [] where
  said := rfl
  counted := rfl
  isSealed := .nil

theorem Utters.trans (h : Utters r xs r' os) (h' : Utters r' ys r'' os') :
    Utters r (xs ++ ys) r'' (os ++ os') where
  said := by
    rw [Claude.utterances_append, h.said, h'.said, h.counted, Count.number_append]
  counted := by rw [h'.counted, h.counted, List.foldl_append]
  isSealed := h.isSealed.append h'.isSealed

/-- Events that say nothing go with pieces of calls only. -/
theorem utters_of_silent (indices : List Nat) (silent : utterances xs = [])
    (counted : r'.count = (indices.map .called).foldl Count.after r.count) :
    Utters r xs r' (indices.map .called) where
  said := silent.trans (Count.number_called r.count indices).symm
  counted := counted
  isSealed := Claude.isSealed_of_silent silent

/-! ## Silent steps -/

theorem utterances_stopBlock (r : Merging) : utterances (stopBlock r).2 = [] := by
  unfold stopBlock
  split <;> rfl

theorem utterances_callEvents (n : Nat) (c : Call) : utterances (callEvents n c) = [] := by
  unfold callEvents
  split <;> rfl

theorem utterances_startCall (index : Nat) (r : Merging) :
    utterances (startCall index r).2 = [] := by
  cases h : r.calls.lookup index with
  | none => rw [startCall, h]; rfl
  | some c =>
    rw [startCall_eq h]
    exact utterances_callEvents r.nextIndex c

theorem utterances_flush (queue : List Nat) (r : Merging) : utterances (flush queue r).2 = [] := by
  induction queue generalizing r with
  | nil => rfl
  | cons index queue ih =>
    rw [flush, Step.seq_apply, Step.seq_apply, Claude.utterances_append, Claude.utterances_append,
      utterances_startCall, utterances_stopBlock, ih]
    rfl

theorem utterances_settle (r : Merging) : utterances (settle r).2 = [] := by
  rw [settle, Step.seq_apply, Claude.utterances_append, utterances_stopBlock, utterances_flush]
  rfl

/-- A move that does not cut says nothing, and gives waiting calls the numbers they have. -/
theorem Move.count (h : Move false r xs r') (idle : r.count.form = none) :
    utterances xs = [] ∧ r'.count = r.count := by
  cases h with
  | stop isOpen _ => exact ⟨rfl, Count.ext rfl idle.symm rfl⟩
  | start idle free | say isOpen free => cases free
  | @call index c rest _ first known =>
    refine ⟨utterances_callEvents r.nextIndex c, Count.ext ?_ idle.symm rfl⟩
    show r.nextIndex + 1 + rest.length = r.nextIndex + r.queued.length
    rw [first, List.length_cons, Nat.add_assoc, Nat.add_comm 1]
  | grow isOpen | hold notOpen => exact ⟨rfl, Count.ext rfl rfl (keep_indices r _ _)⟩

theorem Moves.count (h : Moves false r xs r') (idle : r.count.form = none) :
    utterances xs = [] ∧ r'.count = r.count := by
  induction h with
  | refl r => exact ⟨rfl, rfl⟩
  | step first _ ih =>
    obtain ⟨hx, hc⟩ := first.count idle
    obtain ⟨hy, hc'⟩ := ih (hc ▸ idle)
    exact ⟨by rw [Claude.utterances_append, hx, hy]; rfl, hc'.trans hc⟩

/-! ## Saying something -/

theorem form?_of_plain {kind : BlockKind} (plain : kind.form ≠ .toolUse) :
    spokenForm? kind = some kind.form := by
  cases kind with
  | text | thinking => rfl
  | call index => exact absurd rfl plain

theorem eq_of_spokenForm? {kind kind' : BlockKind} (h : spokenForm? kind = some kind'.form) :
    kind = kind' := by
  cases kind <;> cases kind' <;> first | rfl | cases h

/-- What fits into a block of text or reasoning is said there. -/
theorem utterances_blockDelta {form : Form} {delta : Delta} (plain : form ≠ .toolUse)
    (fits : delta.form? = some form) (n : Nat) :
    utterances [.blockDelta n delta] = [(n, delta)] := by
  cases delta with
  | text s | thinking s | signature s => rfl
  | inputJson s => exact absurd (Option.some.inj fits).symm plain
  | other value => cases fits

/-- In an open block the count has its number, and knows that no call waits. -/
theorem AtRest.count_of_open (h : AtRest r) {n : Nat} {kind : BlockKind}
    (isOpen : r.openBlock = some ⟨n, kind⟩) (plain : kind.form ≠ .toolUse) :
    r.count = ⟨n + 1, some kind.form, r.calls.indices⟩ := by
  refine Count.ext ?_ ?_ rfl
  · show r.nextIndex + r.queued.length = n + 1
    rw [h.rested.queued_eq_nil isOpen plain, h.numbered _ isOpen]
    rfl
  · rw [count, isOpen, ← form?_of_plain plain]
    rfl

/-- Events that say nothing lead to an open block, and what is said next has its number. -/
structure Ready (r : Merging) (xs : List Event) (r' : Merging) (b : OpenBlock) : Prop where
  atRest : AtRest r'
  isOpen : r'.openBlock = some b
  silent : utterances xs = []
  calls : r'.calls = r.calls
  foretold : ∀ delta : Delta, delta.form? = some b.kind.form → r.count.blockFor delta = b.index

theorem AtRest.ready (h : AtRest r) {n : Nat} {kind : BlockKind}
    (isOpen : r.openBlock = some ⟨n, kind⟩) (plain : kind.form ≠ .toolUse) :
    Ready r [] r ⟨n, kind⟩ where
  atRest := h
  isOpen := isOpen
  silent := rfl
  calls := rfl
  foretold delta hd := by
    rw [h.count_of_open isOpen plain, Count.blockFor, if_pos hd]
    rfl

/-- A new block has the number that the count foretells. -/
theorem ensureBlock_ready (h : AtRest r) (kind : BlockKind) (block : Block)
    (plain : kind.form ≠ .toolUse) (fresh : block.form? = some kind.form) :
    ∃ n, Ready r (ensureBlock kind block r).2 (ensureBlock kind block r).1 ⟨n, kind⟩ := by
  by_cases hk : r.openBlock.map (·.kind) = some kind
  · obtain ⟨n, hb⟩ := openBlock_of_kind hk
    have he : ensureBlock kind block r = (r, []) := if_pos hk
    rw [he]
    exact ⟨n, h.ready hb plain⟩
  · have he : ensureBlock kind block r = settle.seq (startBlock kind block) r := if_neg hk
    have ht := (ensureBlock_moves kind block plain fresh h.known).tidy h.toTidy
    rw [he, Step.seq_apply, settle_fst h.known] at ht ⊢
    refine ⟨r.nextIndex + r.queued.length, ⟨ht, fun hq => absurd rfl hq⟩, rfl, ?_, rfl, ?_⟩
    · rw [Claude.utterances_append, utterances_settle]
      rfl
    · intro delta hd
      have hf : delta.form? ≠ r.count.form := by
        rw [hd]
        intro hf
        obtain ⟨b, hb, hs⟩ := Option.bind_eq_some_iff.mp hf.symm
        exact hk (by rw [hb, Option.map_some, eq_of_spokenForm? hs])
      exact if_neg hf

/-- A delta in a block that goes on. -/
theorem Ready.utters {n : Nat} {kind : BlockKind} (h : Ready r xs r' ⟨n, kind⟩) (delta : Delta)
    (plain : kind.form ≠ .toolUse) (fits : delta.form? = some kind.form)
    (unsealed : ∀ s, delta ≠ .signature s) :
    Utters r (xs ++ [.blockDelta n delta]) r' [.said delta] where
  said := by
    rw [Claude.utterances_append, h.silent, utterances_blockDelta plain fits, Count.number,
      h.foretold delta fits]
    rfl
  counted := by
    have hn : r.count.blockFor delta = n := h.foretold delta fits
    rw [h.atRest.count_of_open h.isOpen plain, h.calls, ← hn, ← fits]
    cases delta with
    | signature s => exact absurd rfl (unsealed s)
    | text s | thinking s | inputJson s | other value => rfl
  isSealed := by
    refine (Claude.isSealed_of_silent h.silent).append (.cons ?_ .nil)
    rintro n ⟨s, he⟩
    obtain ⟨-, rfl⟩ := Event.blockDelta.inj he
    exact unsealed s rfl

/-- A signature in a block, which stops with it. -/
theorem Ready.utters_signature {n : Nat} (h : Ready r xs r' ⟨n, .thinking⟩) (s : String) :
    Utters r (xs ++ [.blockDelta n (.signature s), .blockStop n]) { r' with openBlock := none }
      [.said (.signature s)] where
  said := by
    rw [Claude.utterances_append, h.silent, Count.number, h.foretold (.signature s) rfl]
    rfl
  counted := by
    have hc := h.atRest.count_of_open h.isOpen (by decide)
    have hn : r'.nextIndex + r'.queued.length = n + 1 := congrArg Count.next hc
    refine Count.ext (hn.trans ?_) rfl (congrArg Calls.indices h.calls)
    exact congrArg (· + 1) (h.foretold (.signature s) rfl).symm
  isSealed := (Claude.isSealed_of_silent h.silent).append (.sealed .nil)

/-! ## Inputs -/

/-- What an input brings up. -/
def Input.occurrences : Input → List Occurrence
  | report _ => []
  | thinking content signature =>
    (Chat.nonEmpty? content).toList.map (fun s => .said (.thinking s)) ++
      (Chat.nonEmpty? signature).toList.map fun s => .said (.signature s)
  | text s => [.said (.text s)]
  | piece d => [.called d.index]

theorem onText_utters (s : String) (h : AtRest r) :
    Utters r (onText s r).2 (onText s r).1 [.said (.text s)] := by
  have h' : AtRest { r with text := r.text ++ s } := { h with }
  obtain ⟨n, hr⟩ := ensureBlock_ready h' .text (.plain "") (by decide) rfl
  have hs := hr.utters (.text s) (by decide) rfl (by simp)
  rw [onText, Step.seq_apply, emitDelta_eq hr.isOpen]
  exact ⟨hs.said, hs.counted, hs.isSealed⟩

theorem stopBlock_eq {b : OpenBlock} (isOpen : r.openBlock = some b) :
    stopBlock r = ({ r with openBlock := none }, [.blockStop b.index]) := by
  simp only [stopBlock, isOpen]

theorem onThinking_utters (content signature : Option String) (h : AtRest r) :
    Utters r (onThinking content signature r).2 (onThinking content signature r).1
      (Input.thinking content signature).occurrences := by
  obtain ⟨n, hr⟩ := ensureBlock_ready h .thinking (.thinking "" none) (by decide) rfl
  have hd := emitDelta_eq hr.isOpen
  have hb := stopBlock_eq hr.isOpen
  simp only [Input.occurrences]
  unfold onThinking
  cases Chat.nonEmpty? content with
  | none =>
    cases Chat.nonEmpty? signature with
    | none => exact .refl r
    | some t =>
      rw [if_neg (by simp)]
      simp only [Step.all_cons, Step.all_nil, Step.seq_emit_nil, Step.forSome, Step.seq_apply,
        Step.emit, hd, hb]
      exact hr.utters_signature t
  | some s =>
    have hs := hr.utters (.thinking s) (by decide) rfl (by simp)
    have hg := hr.atRest.ready hr.isOpen (by decide)
    rw [if_neg (by simp)]
    cases Chat.nonEmpty? signature with
    | none =>
      simp only [Step.all_cons, Step.all_nil, Step.seq_emit_nil, Step.forSome, Step.seq_apply, hd]
      exact hs
    | some t =>
      simp only [Step.all_cons, Step.all_nil, Step.seq_emit_nil, Step.forSome, Step.seq_apply, hd,
        hb]
      rw [← List.append_assoc]
      exact hs.trans (hg.utters_signature t)

/-- While something is being said, arguments for a call are held back. -/
theorem onArguments_utters (index : Nat) (s : String) (h : AtRest r) :
    Utters r (onArguments index s r).2 (onArguments index s r).1 [] := by
  by_cases idle : r.count.form = none
  · obtain ⟨hs, hc⟩ := (onArguments_moves index s h.toTidy h.rested).1.count idle
    exact utters_of_silent [] hs hc
  · have hk : r.openBlock.map (·.kind) ≠ some (.call index) := by
      intro hk
      obtain ⟨n, hb⟩ := openBlock_of_kind hk
      exact idle (by rw [count, hb]; rfl)
    rw [onArguments_eq, if_neg hk]
    exact utters_of_silent [] rfl (Count.ext rfl rfl (keep_indices r index s))

/-- Behind an open call nothing is being said. -/
theorem form_of_openCallIsWhole? {whole : Bool} (h : r.openCallIsWhole? = some whole) :
    r.count.form = none := by
  unfold openCallIsWhole? at h
  split at h
  case h_1 ho => rw [count, ho]; rfl
  case h_2 => cases h

theorem onCallHead_utters (d : Chat.ToolCallDelta) (h : AtRest r) :
    Utters r (onCallHead d r).2 (onCallHead d r).1 [.called d.index] := by
  by_cases known : d.index ∈ r.calls.indices
  · have hc : r.count.after (.called d.index) = r.count := Count.after_of_known known
    rw [onCallHead_of_known known, learnCall_of_known known]
    refine utters_of_silent [d.index] rfl (Eq.trans ?_ hc.symm)
    exact Count.ext rfl rfl (Calls.indices_modify _ _ _)
  · have hc : r.count.after (.called d.index) = ⟨r.count.next + 1, none, _⟩ :=
      Count.after_of_new known
    obtain ⟨hw, he⟩ | ⟨hw, hq, he⟩ := onCallHead_of_new known h.toTidy h.rested
    · rw [he, learnCall_of_new known]
      refine utters_of_silent [d.index] rfl (Eq.trans ?_ hc.symm)
      refine Count.ext ?_ (form_of_openCallIsWhole? (r := r) hw) (addCall_indices r d)
      show r.nextIndex + (r.queued ++ [d.index]).length = r.nextIndex + r.queued.length + 1
      rw [List.length_append, ← Nat.add_assoc]
      rfl
    · rw [he]
      refine utters_of_silent [d.index] ?_ (Eq.trans ?_ hc.symm)
      · rw [Claude.utterances_append, utterances_stopBlock, utterances_callEvents]
        rfl
      · refine Count.ext ?_ rfl (addCall_indices r d)
        show r.nextIndex + 1 + r.queued.length = r.nextIndex + r.queued.length + 1
        rw [hq]
        rfl

theorem onCall_utters (d : Chat.ToolCallDelta) (h : AtRest r) :
    Utters r (onCall d r).2 (onCall d r).1 [.called d.index] := by
  have hh := onCallHead_utters d h
  obtain ⟨hm, hr⟩ := onCallHead_moves d h.toTidy h.rested
  have ht : AtRest (onCallHead d r).1 := ⟨hm.tidy (learnCall_tidy h.toTidy d), hr⟩
  rw [onCall, Step.seq_apply]
  cases Chat.nonEmpty? d.arguments? with
  | none =>
    rw [Step.forSome, Step.emit, List.append_nil]
    exact hh
  | some s => exact hh.trans (onArguments_utters d.index s ht)

/-- What an input brings up is said as the count has it. -/
theorem Input.take_utters (x : Input) (h : AtRest r) :
    Utters r (x.take r).2 (x.take r).1 x.occurrences := by
  cases x with
  | report usage => exact ⟨rfl, rfl, .nil⟩
  | thinking content signature => exact onThinking_utters content signature h
  | text s => exact onText_utters s h
  | piece d => exact onCall_utters d h

theorem feed_utters (inputs : List Input) (h : AtRest r) :
    Utters r (feed inputs r).2 (feed inputs r).1 (inputs.flatMap Input.occurrences) := by
  induction inputs generalizing r with
  | nil => exact .refl r
  | cons x inputs ih =>
    rw [feed_cons, Step.seq_apply, List.flatMap_cons]
    exact (x.take_utters h).trans (ih (h.take x))

/-! ## Runs -/

theorem occurrences_map {α : Type} {f : α → Input} {g : α → Occurrence}
    (h : ∀ a, (f a).occurrences = [g a]) (as : List α) :
    (as.map f).flatMap Input.occurrences = as.map g := by
  rw [List.flatMap_map]
  simp only [h]
  exact List.flatMap_pure_eq_map g as

theorem occurrences_chunkInputs (chunk : Chat.Chunk) :
    (chunkInputs chunk).flatMap Input.occurrences =
      (chunkUtterances chunk).map .said ++
        (firstPieces [] (callDeltas chunk)).map fun d => .called d.index := by
  cases hc : chunk.choices.head? with
  | none => simp [chunkInputs, chunkParts, chunkUtterances, callDeltas, hc, Input.occurrences,
      firstPieces]
  | some choice =>
    have hn : Chat.nonEmpty? none = none := rfl
    have hr : (choice.delta.reasoningContent.toList.map fun s =>
        Input.thinking (some s) none).flatMap Input.occurrences =
          (Chat.nonEmpty? choice.delta.reasoningContent).toList.map fun s =>
            .said (.thinking s) := by
      cases choice.delta.reasoningContent <;> simp [Input.occurrences, hn]
    have ht : (choice.delta.thinking.toList.map fun t =>
        Input.thinking t.content t.signature).flatMap Input.occurrences =
          ((Chat.nonEmpty? (choice.delta.thinking.bind (·.content))).toList.map fun s =>
            .said (.thinking s)) ++
          (Chat.nonEmpty? (choice.delta.thinking.bind (·.signature))).toList.map fun s =>
            .said (.signature s) := by
      cases choice.delta.thinking <;> simp [Input.occurrences, hn]
    simp only [chunkInputs, chunkParts, chunkUtterances, callDeltas, hc, Option.toList_some,
      choiceInputs, choicePieces, List.flatMap_cons, List.flatMap_append, List.flatMap_nil,
      List.append_nil, List.map_append, List.map_map, hr, ht]
    rw [occurrences_map (g := fun s => .said (.text s)) fun _ => rfl,
      occurrences_map (g := fun d => .called d.index) fun _ => rfl]
    simp only [Input.occurrences, List.nil_append, List.append_assoc, Function.comp_def]

/-- That only first pieces are taken in makes no difference to what is said. -/
theorem number_inputs (chunks : List Chat.Chunk) (c : Count) :
    c.number ((chunks.flatMap chunkInputs).flatMap Input.occurrences) =
      c.number (occurrences chunks) := by
  induction chunks generalizing c with
  | nil => rfl
  | cons chunk chunks ih =>
    have ho : occurrences (chunk :: chunks) = (chunkUtterances chunk).map .said ++
        ((callDeltas chunk).map (fun d => .called d.index) ++ occurrences chunks) :=
      List.append_assoc _ _ _
    have hn : ∀ (c : Count) (ds : List Chat.ToolCallDelta),
        c.number (ds.map fun d => .called d.index) = [] := by
      intro c ds
      have hm := c.number_called (ds.map (·.index))
      rwa [List.map_map] at hm
    rw [List.flatMap_cons, List.flatMap_append, occurrences_chunkInputs, ho, List.append_assoc,
      Count.number_append, Count.number_append, Count.number_append, Count.number_append, hn, hn,
      Count.foldl_firstPieces [] _ (fun _ hi => absurd hi List.not_mem_nil), ih]

/-- Two pieces of text, or two of reasoning. -/
inductive Kindred : Delta → Delta → Prop
  | text (s t : String) : Kindred (.text s) (.text t)
  | thinking (s t : String) : Kindred (.thinking s) (.thinking t)

namespace Count

/-- Until a call shows up, the same kind of thing is said in the same block. -/
theorem blockFor_eq_iff (c : Count) {delta delta' : Delta} (h : Kindred delta delta')
    (indices : List Nat) :
    ((indices.map .called).foldl after (c.after (.said delta))).blockFor delta' =
        c.blockFor delta ↔
      ∀ index ∈ indices, index ∈ c.known := by
  have hc : c.after (.said delta) = ⟨c.blockFor delta + 1, delta'.form?, c.known⟩ := by
    cases h <;> rfl
  have hf : delta'.form? ≠ none := by
    cases h <;> exact nofun
  rw [hc]
  constructor
  · intro he
    by_contra! hn
    obtain ⟨index, hi, new⟩ := hn
    obtain ⟨hl, ho⟩ := foldl_of_new (c := ⟨c.blockFor delta + 1, delta'.form?, c.known⟩) hi new
    rw [blockFor, ho, if_neg hf] at he
    rw [he] at hl
    exact absurd hl (Nat.not_lt.mpr (Nat.le_succ _))
  · intro hk
    rw [foldl_of_known (c := ⟨c.blockFor delta + 1, delta'.form?, c.known⟩) hk, blockFor,
      if_pos rfl]
    rfl

end Count

section Runs

variable [Tokenizer] (model : String) (promptTokens : Nat) (now : Instant)

/-- What a run says, and in which blocks, as a count of blocks has it. -/
theorem utterances_run_start (actions : List (Action Chat.Chunk)) :
    utterances (run actions (start model promptTokens now)).2 =
        Count.number ⟨0, none, []⟩ (occurrences (heard actions)) ∧
      IsSealed (run actions (start model promptTokens now)).2 := by
  rw [← number_inputs, ← inputs]
  by_cases ho : opens actions = true
  · have hf := feed_utters (inputs actions) (atRest_opened model promptTokens now)
    have he : utterances ((ending actions).step
        (taken model promptTokens now (inputs actions)).1).2 = [] := by
      cases ending actions with
      | none | left => rfl
      | stopped reason =>
        rw [Ending.step, closeMessage_eq _ (atRest_taken model promptTokens now _).toTidy,
          Claude.utterances_append, utterances_settle]
        rfl
    have hx : utterances (taken model promptTokens now (inputs actions)).2 =
        Count.number ⟨0, none, []⟩ ((inputs actions).flatMap Input.occurrences) := hf.said
    have hs : IsSealed (taken model promptTokens now (inputs actions)).2 := by
      refine .cons ?_ hf.isSealed
      rintro n ⟨s, he⟩
      cases he
    rw [run_start_eq_taken model promptTokens now ho]
    refine ⟨?_, hs.append (Claude.isSealed_of_silent he)⟩
    rw [Claude.utterances_append, he, hx, List.append_nil]
  · obtain ⟨hr, he⟩ := run_start_of_not_opens model promptTokens now (Bool.eq_false_iff.mpr ho)
    rw [hr, inputs_of_not_opens ho]
    rcases he with he | he <;> rw [he] <;> exact ⟨rfl, .nil⟩

/-- What chunks say is said in a run, in order and piece by piece. A signature is the last
delta of its block, which is one of reasoning. Two neighbours of the same kind, text or
reasoning, are in one block if and only if no call showed up between them. -/
theorem run_start_utters (actions : List (Action Chat.Chunk)) :
    let events := (run actions (start model promptTokens now)).2
    (utterances events).map Prod.snd = (heard actions).flatMap chunkUtterances ∧
      (∀ front n s rest, events = front ++ .blockDelta n (.signature s) :: rest →
        .blockStart n (.thinking "" none) ∈ front ∧ rest.head? = some (.blockStop n) ∧
          ∀ delta, .blockDelta n delta ∉ rest) ∧
      ∀ past delta (indices : List Nat) delta' rest, occurrences (heard actions) =
          past ++ .said delta :: (indices.map .called ++ .said delta' :: rest) →
        Kindred delta delta' → ∃ front n n' back,
          utterances events = front ++ (n, delta) :: (n', delta') :: back ∧
            front.map Prod.snd = past.filterMap Occurrence.delta? ∧
            (n = n' ↔ ∀ index ∈ indices, .called index ∈ past) := by
  intro events
  obtain ⟨hu, hs⟩ := utterances_run_start model promptTokens now actions
  refine ⟨?_, fun front n s rest he => ?_, fun past delta indices delta' rest ho kin => ?_⟩
  · rw [hu, Count.number_snd, deltas_occurrences]
  · obtain ⟨p, hp, -⟩ := read?_run_start model promptTokens now actions
    have he : (run actions (start model promptTokens now)).2 = _ := he
    rw [he] at hs hp
    exact hs.last hp
  · rw [ho, Count.number_append, Count.number, Count.number_append, Count.number_called,
      Count.number] at hu
    refine ⟨_, _, _, _, hu, Count.number_snd _ past, ?_⟩
    rw [eq_comm, Count.blockFor_eq_iff _ kin]
    refine forall₂_congr fun index _ => ?_
    rw [Count.mem_known]
    exact or_iff_right List.not_mem_nil

end Runs

/-- A call that shows up ends a block of text, and one that is known does not. -/
example :
    let piece := callChunk [⟨4, some "a", true, some (some "f", some "\x7b")⟩]
    let chunks := [textChunk "x", piece, textChunk "y", piece, textChunk "z"]
    utterances (run (chunks.map .accept) (start "m" 1 ⟨0⟩)).2 =
      [(0, .text "x"), (2, .text "y"), (2, .text "z")] := by
  decide +kernel

end Switchboard.Relay.Merging
