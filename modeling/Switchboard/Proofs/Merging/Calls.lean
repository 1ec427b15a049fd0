import Mathlib.Data.List.Induction
import Switchboard.Proofs.Merging.Run

/-!
# What a relay knows of the calls

A relay knows the calls whose pieces it took, in the order of their first pieces, and
what it knows of one can be read off the pieces of that call (`callOf?`) : its id and
name are those of the first piece that carries both, made up from the first piece until
then, and its arguments are what the pieces bring, one after another. Text and reasoning
between the pieces make no difference (`feed_knows`).
-/

namespace Switchboard.Relay

/-- Append to the arguments of a call. -/
def Call.append (s : String) (c : Call) : Call := { c with arguments := c.arguments ++ s }

namespace Merging

variable {r : Merging}

/-! ## Pieces -/

/-- The piece of a call that an input is. -/
def Input.piece? : Input → Option Chat.ToolCallDelta
  | piece d => some d
  | _ => none

/-- The pieces of calls among inputs. -/
def pieces (xs : List Input) : List Chat.ToolCallDelta := xs.filterMap Input.piece?

/-- The pieces of the call with an index. -/
def piecesOf (index : Nat) (xs : List Input) : List Chat.ToolCallDelta :=
  (pieces xs).filter fun d => d.index = index

/-- The indices of pieces, in the order of their first appearance. -/
def indicesOf (ds : List Chat.ToolCallDelta) : List Nat := (ds.map (·.index)).eraseDups

theorem pieces_append (xs ys : List Input) : pieces (xs ++ ys) = pieces xs ++ pieces ys :=
  List.filterMap_append

theorem piecesOf_append (index : Nat) (xs ys : List Input) :
    piecesOf index (xs ++ ys) = piecesOf index xs ++ piecesOf index ys := by
  rw [piecesOf, pieces_append, List.filter_append, piecesOf, piecesOf]

theorem indicesOf_concat (ds : List Chat.ToolCallDelta) (d : Chat.ToolCallDelta) :
    indicesOf (ds ++ [d]) = indicesOf ds ++ if d.index ∈ indicesOf ds then [] else [d.index] := by
  simp only [indicesOf, List.map_append, List.eraseDups_append, List.mem_eraseDups]
  split <;> simp_all [List.removeAll, List.eraseDups_cons]

theorem mem_indicesOf {ds : List Chat.ToolCallDelta} {index : Nat} :
    index ∈ indicesOf ds ↔ ∃ d ∈ ds, d.index = index := by
  simp [indicesOf]

/-! ## A call from its pieces -/

/-- The id and the name that a piece carries, if it carries both. -/
def nameplate? (d : Chat.ToolCallDelta) : Option (String × String) :=
  match Chat.nonEmpty? d.id, Chat.nonEmpty? d.name? with
  | some id, some name => some (id, name)
  | _, _ => none

/-- The id and the name of a call that shows up with a piece, made up where missing. -/
def provisional (now : Instant) (d : Chat.ToolCallDelta) : String × String :=
  ((Chat.nonEmpty? d.id).getD ("call_" ++ toString now.milliseconds ++ "_" ++ toString d.index),
    (Chat.nonEmpty? d.name?).getD ("tool_" ++ toString d.index))

/-- The id and the name of the call with the given pieces. -/
def identity? (now : Instant) (ds : List Chat.ToolCallDelta) : Option (String × String) :=
  ds.head?.map fun d => (ds.findSome? nameplate?).getD (provisional now d)

/-- The arguments that pieces bring. -/
def argumentsOf (ds : List Chat.ToolCallDelta) : String :=
  String.join (ds.filterMap (·.arguments?))

/-- The call with the given pieces. -/
def callOf? (now : Instant) (ds : List Chat.ToolCallDelta) : Option Call :=
  (identity? now ds).map fun (id, name) =>
    ⟨id, name, (ds.findSome? nameplate?).isNone, argumentsOf ds⟩

theorem argumentsOf_concat (ds : List Chat.ToolCallDelta) (d : Chat.ToolCallDelta) :
    argumentsOf (ds ++ [d]) = argumentsOf ds ++ d.arguments?.getD "" := by
  rw [argumentsOf, List.filterMap_append, String.join_append, argumentsOf]
  cases h : d.arguments? <;> simp [h]

/-- The first piece makes the call. -/
theorem callOf?_singleton (now : Instant) (d : Chat.ToolCallDelta) :
    callOf? now [d] = some ((newCall now d).append (d.arguments?.getD "")) := by
  have ha : argumentsOf [d] = d.arguments?.getD "" := by
    rw [← List.nil_append [d], argumentsOf_concat]
    simp [argumentsOf]
  simp only [callOf?, ha, identity?, newCall, Call.append, provisional]
  cases hi : Chat.nonEmpty? d.id <;> cases hn : Chat.nonEmpty? d.name? <;> simp [nameplate?, hi, hn]

/-- Every other piece may promote it, and brings arguments. -/
theorem callOf?_concat {now : Instant} {ds : List Chat.ToolCallDelta} {c : Call}
    (h : callOf? now ds = some c) (d : Chat.ToolCallDelta) :
    callOf? now (ds ++ [d]) = some ((Call.promote d c).append (d.arguments?.getD "")) := by
  cases ds with
  | nil => cases h
  | cons e ds =>
    obtain rfl := Option.some.inj h
    simp only [callOf?, identity?, argumentsOf_concat, List.findSome?_append]
    cases hf : (e :: ds).findSome? nameplate? with
    | some p => simp [Call.promote, Call.append]
    | none =>
      cases hi : Chat.nonEmpty? d.id <;> cases hn : Chat.nonEmpty? d.name? <;>
        simp [nameplate?, Call.promote, Call.append, hi, hn]

/-! ## The calls of a relay -/

theorem ensureBlock_calls {kind : BlockKind} {block : Claude.Block}
    (known : ∀ index ∈ r.queued, index ∈ r.calls.indices) :
    (ensureBlock kind block r).1.calls = r.calls := by
  unfold ensureBlock
  split
  · rfl
  · rw [Step.seq_apply, settle_fst known]
    rfl

theorem emitDelta_fst (delta : Claude.Delta) (r : Merging) : (emitDelta delta r).1 = r := by
  unfold emitDelta
  split <;> rfl

theorem onText_calls (s : String) (ht : Tidy r) : (onText s r).1.calls = r.calls := by
  rw [onText, Step.seq_apply, emitDelta_fst]
  exact ensureBlock_calls (r := { r with text := r.text ++ s }) ht.known

theorem onThinking_calls (content signature : Option String) (ht : Tidy r) :
    (onThinking content signature r).1.calls = r.calls := by
  unfold onThinking
  split
  · rfl
  · simp only [Step.all_cons, Step.all_nil, Step.seq_emit_nil, Step.seq_apply]
    have hs : ∀ r, (Step.forSome (Chat.nonEmpty? content) (fun s => emitDelta (.thinking s)) r).1 =
        r := by
      intro r
      cases Chat.nonEmpty? content with
      | none => rfl
      | some s => exact emitDelta_fst _ r
    rw [hs]
    cases Chat.nonEmpty? signature with
    | none => exact ensureBlock_calls ht.known
    | some s =>
      rw [Step.forSome, Step.seq_apply, stopBlock_fst, emitDelta_fst]
      exact ensureBlock_calls ht.known

theorem onCallHead_calls (d : Chat.ToolCallDelta) (ht : Tidy r) (hr : Rested r) :
    (onCallHead d r).1.calls = (r.learnCall d).calls := by
  by_cases known : d.index ∈ r.calls.indices
  · rw [onCallHead_of_known known]
  · obtain ⟨_, he⟩ | ⟨_, _, he⟩ := onCallHead_of_new known ht hr
    · rw [he]
    · rw [he, learnCall_of_new known]
      rfl

theorem onArguments_calls (index : Nat) (s : String) (r : Merging) :
    (onArguments index s r).1.calls = (r.keep index s).calls := by
  rw [onArguments_eq]
  split
  · rw [Step.seq_apply, advance, advanceFrom_calls, emitDelta_fst]
  · rfl

theorem keep_calls_empty (r : Merging) (index : Nat) : (r.keep index "").calls = r.calls := by
  simp only [keep, Calls.modify, String.append_empty]
  exact (List.map_congr_left fun p _ => by simp).trans r.calls.map_id

theorem onCall_calls (d : Chat.ToolCallDelta) (ht : Tidy r) (hr : Rested r) :
    (onCall d r).1.calls = ((r.learnCall d).keep d.index (d.arguments?.getD "")).calls := by
  have hh := onCallHead_calls d ht hr
  have he : Chat.nonEmpty? d.arguments? = none → d.arguments?.getD "" = "" := by
    cases d.arguments? <;> simp [Chat.nonEmpty?]
  rw [onCall, Step.seq_apply]
  cases ha : Chat.nonEmpty? d.arguments? with
  | none => rw [he ha, keep_calls_empty, ← hh, Step.forSome, Step.emit]
  | some s =>
    have hs : d.arguments? = some s := (Option.filter_eq_some_iff.mp ha).1
    rw [Step.forSome, onArguments_calls, hs, Option.getD_some, keep, hh, keep]

/-- What is known of every call after an input. -/
theorem lookup_take (x : Input) (ht : Tidy r) (hr : Rested r) (index : Nat) :
    (x.take r).1.calls.lookup index =
      match x.piece? with
      | some d =>
        if index = d.index then
          some (((r.calls.lookup index).elim (newCall r.now d) (Call.promote d)).append
            (d.arguments?.getD ""))
        else r.calls.lookup index
      | none => r.calls.lookup index := by
  cases x with
  | report usage => rfl
  | thinking content signature =>
    exact congrArg (·.lookup index) (onThinking_calls content signature ht)
  | text s => exact congrArg (·.lookup index) (onText_calls s ht)
  | piece d =>
    simp only [Input.take, Input.piece?, onCall_calls d ht hr, keep, Calls.lookup_modify]
    by_cases known : d.index ∈ r.calls.indices
    · rw [learnCall_of_known known, Calls.lookup_modify]
      obtain ⟨c, hc⟩ := Calls.exists_lookup known
      by_cases hi : index = d.index
      · subst hi
        simp [hc, Call.append]
      · simp [hi]
    · rw [learnCall_of_new known]
      have hn := (Calls.lookup_eq_none_iff _ _).mpr known
      by_cases hi : index = d.index
      · subst hi
        simp [enqueue, lookup_addCall known, hn, Call.append]
      · have hb : (index == d.index) = false := by simpa using hi
        simp [enqueue, addCall, List.lookup_append, List.lookup_cons, hi, hb]

/-- The calls, in the order they showed up, after an input. -/
theorem indices_take (x : Input) (ht : Tidy r) (hr : Rested r) :
    (x.take r).1.calls.indices = r.calls.indices ++
      match x.piece? with
      | some d => if d.index ∈ r.calls.indices then [] else [d.index]
      | none => [] := by
  cases x with
  | report usage => exact (List.append_nil _).symm
  | thinking content signature =>
    exact (congrArg Calls.indices (onThinking_calls content signature ht)).trans
      (List.append_nil _).symm
  | text s =>
    exact (congrArg Calls.indices (onText_calls s ht)).trans (List.append_nil _).symm
  | piece d =>
    simp only [Input.take, Input.piece?, onCall_calls d ht hr, keep, Calls.indices_modify]
    by_cases known : d.index ∈ r.calls.indices
    · rw [learnCall_of_known known, Calls.indices_modify, if_pos known, List.append_nil]
    · rw [learnCall_of_new known, if_neg known]
      exact addCall_indices r d

/-- What is learnt from an input lets new calls wait. -/
theorem Input.learn_arrived (x : Input) (r : Merging) : ∃ new,
    (x.learn r).calls.indices = r.calls.indices ++ new ∧ (x.learn r).queued = r.queued ++ new := by
  cases x with
  | report usage | thinking content signature | text s => exact ⟨[], by simp [learn]⟩
  | piece d =>
    by_cases known : d.index ∈ r.calls.indices
    · exact ⟨[], by simp [learn, learnCall_of_known known, Calls.indices_modify]⟩
    · refine ⟨[d.index], ?_⟩
      rw [learn, learnCall_of_new known]
      exact ⟨addCall_indices r d, rfl⟩

theorem Input.learn_block (x : Input) (r : Merging) :
    (x.learn r).openBlock = r.openBlock ∧ (x.learn r).nextIndex = r.nextIndex := by
  cases x with
  | report usage | thinking content signature | text s => exact ⟨rfl, rfl⟩
  | piece d =>
    by_cases known : d.index ∈ r.calls.indices
    · simp only [learn, learnCall_of_known known, and_self]
    · simp only [learn, learnCall_of_new known, enqueue, addCall, and_self]

/-- A relay knows the calls whose pieces are among the inputs. -/
structure Knows (xs : List Input) (r : Merging) : Prop where
  arrived : r.calls.indices = indicesOf (pieces xs)
  known : ∀ index, r.calls.lookup index = callOf? r.now (piecesOf index xs)

theorem Knows.take {xs : List Input} (h : Knows xs r) (hr : AtRest r) (x : Input) :
    Knows (xs ++ [x]) (x.take r).1 := by
  have hn : (x.take r).1.now = r.now := by rw [hr.take_frame x]
  refine ⟨?_, fun index => ?_⟩
  · rw [indices_take x hr.toTidy hr.rested, h.arrived, pieces_append]
    cases hx : x.piece? with
    | none => simp [pieces, hx]
    | some d => simpa [pieces, hx] using (indicesOf_concat (pieces xs) d).symm
  · rw [lookup_take x hr.toTidy hr.rested, h.known, piecesOf_append, hn]
    cases hx : x.piece? with
    | none => simp [piecesOf, pieces, hx]
    | some d =>
      by_cases hi : index = d.index
      · have hp : piecesOf index [x] = [d] := by simp [piecesOf, pieces, hx, hi]
        simp only [if_pos hi, hp]
        cases hc : callOf? r.now (piecesOf index xs) with
        | none =>
          have he : piecesOf index xs = [] := by
            simpa [callOf?, identity?] using hc
          rw [he, List.nil_append, callOf?_singleton, Option.elim_none]
        | some c => rw [callOf?_concat hc, Option.elim_some]
      · have hp : piecesOf index [x] = [] := by simp [piecesOf, pieces, hx, Ne.symm hi]
        simp only [if_neg hi, hp, List.append_nil]

/-- What a relay knows of the calls is what their pieces say, whatever came between. -/
theorem feed_knows (h : AtRest r) (empty : r.calls = []) (xs : List Input) :
    Knows xs (feed xs r).1 := by
  induction xs using List.reverseRecOn with
  | nil => exact ⟨congrArg Calls.indices empty, fun _ => congrArg _ empty⟩
  | append_singleton xs x ih =>
    rw [feed_concat]
    exact ih.take (h.feed xs) x

end Merging

end Switchboard.Relay
