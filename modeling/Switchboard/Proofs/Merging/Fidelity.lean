import Switchboard.Proofs.Merging.Arrival
import Switchboard.Proofs.Merging.Passed
import Switchboard.Proofs.Merging.WellFormed

/-!
# The arguments of calls arrive as they came

A relay keeps of the arguments of a call what its pieces bring, and at every point of a
run it has given the block of the call a front of that : nothing while the call waits,
all of it while the block is open (`Faithful`). What the block was given when it stopped
is what it was given in the end. So nothing is lost exactly if no arguments came for a
block that was stopped (`run_start_faithful`).
-/

namespace Switchboard.Relay.Merging

open Claude (Event Place StopReason callNumbers inputOf)

variable {r : Merging} {es es' : List Event} {arrived arrived' : List Nat} {index : Nat}

/-! ## Blocks that were stopped -/

theorem zip_prefix_zip {l l' m m' : List Nat} (hl : l <+: l') (hm : m <+: m') :
    l.zip m <+: l'.zip m' := by
  induction l generalizing l' m m' with
  | nil => exact List.nil_prefix
  | cons a l ih =>
    obtain ⟨t, rfl⟩ := hl
    cases m with
    | nil => exact List.nil_prefix
    | cons b m =>
      obtain ⟨u, rfl⟩ := hm
      exact (List.prefix_cons_inj (a, b)).mpr (ih (List.prefix_append l t) (List.prefix_append m u))

/-- A call keeps its block. -/
theorem blockOf?_mono {n : Nat} (ha : arrived <+: arrived') (he : es <+: es')
    (h : blockOf? arrived es index = some n) : blockOf? arrived' es' index = some n := by
  obtain ⟨xs, rfl⟩ := he
  refine List.IsPrefix.lookup_eq_some (zip_prefix_zip ha ?_) h
  rw [Claude.callNumbers_append]
  exact List.prefix_append _ _

/-- What a block that was stopped was given does not change. -/
theorem IsStopped.delivered {p q : Place} (h : IsStopped arrived es index)
    (ha : arrived <+: arrived') (he : es <+: es') (hr : p.read? es' = some q) :
    delivered arrived' es' index = delivered arrived es index := by
  obtain ⟨n, hb, hs⟩ := h
  rw [delivered_of_blockOf? hb, delivered_of_blockOf? (blockOf?_mono ha he hb)]
  obtain ⟨xs, rfl⟩ := he
  exact Claude.inputOf_append_of_stopped hs hr

/-- The stop of an open block has not been read. -/
theorem not_blockStop_of_open {n : Nat} {kind : BlockKind} {p : Place}
    (hr : p.read? es = some r.place) (ho : r.openBlock = some ⟨n, kind⟩) : .blockStop n ∉ es := by
  intro hs
  have hb := Place.beyond_of_read? hs hr
  rw [place_of_open ho] at hb
  exact Nat.lt_irrefl n hb

/-! ## At every point of a run -/

/-- What the blocks of calls have been given when the inputs have been taken. -/
structure Faithful (xs : List Input) (r : Merging) (events : List Event) : Prop where
  kept : ∀ index, r.arguments? index =
    if index ∈ indicesOf (pieces xs) then some (argumentsOf (piecesOf index xs)) else none
  front : ∀ index, ∃ rest,
    (r.arguments? index).getD "" = delivered (indicesOf (pieces xs)) events index ++ rest
  waits : ∀ index, index ∈ r.queued ↔ index ∈ indicesOf (pieces xs) ∧
    blockOf? (indicesOf (pieces xs)) events index = none
  waiting : ∀ index ∈ r.queued, delivered (indicesOf (pieces xs)) events index = ""
  isOpen : ∀ n index, r.openBlock = some ⟨n, .call index⟩ ↔
    blockOf? (indicesOf (pieces xs)) events index = some n ∧ .blockStop n ∉ events
  current : ∀ n index, r.openBlock = some ⟨n, .call index⟩ →
    r.arguments? index = some (delivered (indicesOf (pieces xs)) events index)

theorem piecesOf_eq_nil {xs : List Input} (h : index ∉ indicesOf (pieces xs)) :
    piecesOf index xs = [] := by
  refine List.filter_eq_nil_iff.mpr fun d hd hi => h (mem_indicesOf.mpr ⟨d, hd, ?_⟩)
  simpa using hi

theorem Knows.arguments? {xs : List Input} (h : Knows xs r) (index : Nat) :
    r.arguments? index =
      if index ∈ indicesOf (pieces xs) then some (argumentsOf (piecesOf index xs)) else none := by
  rw [Merging.arguments?, h.known, callOf?, identity?]
  by_cases hi : index ∈ indicesOf (pieces xs)
  · obtain ⟨d, hd, heq⟩ := mem_indicesOf.mp hi
    obtain ⟨e, ds, hp⟩ : ∃ e ds, piecesOf index xs = e :: ds :=
      List.exists_cons_of_ne_nil (List.ne_nil_of_mem (List.mem_filter.mpr ⟨hd, by simpa using heq⟩))
    rw [if_pos hi, hp]
    rfl
  · rw [if_neg hi, piecesOf_eq_nil hi]
    rfl

/-- For a call of which nothing has come there are no arguments. -/
theorem Knows.getD_arguments? {xs : List Input} (h : Knows xs r) (index : Nat) :
    (r.arguments? index).getD "" = argumentsOf (piecesOf index xs) := by
  rw [h.arguments?]
  split
  case isTrue => rfl
  case isFalse hi =>
    rw [piecesOf_eq_nil hi]
    rfl

theorem delivered_of_not_mem (h : index ∉ arrived) (es : List Event) :
    delivered arrived es index = "" := by
  rw [delivered, blockOf?, lookup_zip_of_not_mem h]
  rfl

theorem Passed.front {late : Nat → Prop} {cut : Bool} (h : Passed late cut es r) (ht : Tidy r)
    (index : Nat) : ∃ rest,
      (r.arguments? index).getD "" = delivered r.calls.indices es index ++ rest := by
  by_cases hi : index ∈ r.calls.indices
  · by_cases ho : r.openCall? = some index
    · obtain ⟨n, hb, hg⟩ := h.exists_giving ht ho
      exact ⟨"", by rw [delivered_of_blockOf? hb, hg.all, Option.getD_some, String.append_empty]⟩
    by_cases hq : index ∈ r.queued
    · exact ⟨_, by rw [delivered, h.blockOf?_of_queued ht hq]; exact String.empty_append.symm⟩
    obtain ⟨n, hb, hg⟩ := h.exists_given hi ho hq
    obtain ⟨rest, ha, -⟩ := hg.front
    exact ⟨rest, by rw [delivered_of_blockOf? hb, ha, Option.getD_some]⟩
  · exact ⟨_, by rw [delivered_of_not_mem hi]; exact String.empty_append.symm⟩

/-- When no block is open, and no call waits, what a block lacks came late. -/
theorem Passed.eq_delivered {late : Nat → Prop} {cut : Bool} (h : Passed late cut es r)
    (ho : r.openCall? = none) (hq : r.queued = []) (hl : ¬ late index) :
    (r.arguments? index).getD "" = delivered r.calls.indices es index := by
  by_cases hi : index ∈ r.calls.indices
  · obtain ⟨n, hb, hg⟩ := h.exists_given hi (by rw [ho]; nofun) (by rw [hq]; exact List.not_mem_nil)
    obtain ⟨rest, ha, hr⟩ := hg.front
    rw [delivered_of_blockOf? hb, ha, hr hl, Option.getD_some, String.append_empty]
  · have hnone : r.arguments? index = none := by
      rw [Merging.arguments?, (Calls.lookup_eq_none_iff _ _).mpr hi, Option.map_none]
    rw [hnone, delivered_of_not_mem hi, Option.getD_none]

theorem Passed.faithful {late : Nat → Prop} {cut : Bool} {xs : List Input}
    (h : Passed late cut es r) (ht : Tidy r) (hk : Knows xs r)
    (going : ∀ n kind, r.openBlock = some ⟨n, kind⟩ → .blockStop n ∉ es) : Faithful xs r es := by
  have open_iff : ∀ n index, r.openBlock = some ⟨n, .call index⟩ ↔
      blockOf? r.calls.indices es index = some n ∧ .blockStop n ∉ es := by
    intro n index
    constructor
    · intro ho
      obtain ⟨m, hb, hg⟩ := h.exists_giving ht (openCall?_of_call ho)
      obtain rfl := (OpenBlock.mk.inj (Option.some.inj (hg.isOpen.symm.trans ho))).1
      exact ⟨hb, going _ _ ho⟩
    · rintro ⟨hb, hs⟩
      rcases h.giving_or_given ht hb with hg | hg
      · exact hg.isOpen
      · exact absurd hg.isStopped hs
  refine ⟨hk.arguments?, ?_, ?_, ?_, ?_, ?_⟩ <;> rw [← hk.arrived]
  · exact h.front ht
  · intro index
    refine ⟨fun hq => ⟨ht.known index hq, h.blockOf?_of_queued ht hq⟩, ?_⟩
    rintro ⟨hi, hb⟩
    by_contra hq
    by_cases ho : r.openCall? = some index
    · obtain ⟨n, hn, -⟩ := h.exists_giving ht ho
      rw [hn] at hb
      cases hb
    · obtain ⟨n, hn, -⟩ := h.exists_given hi ho hq
      rw [hn] at hb
      cases hb
  · intro index hq
    rw [delivered, h.blockOf?_of_queued ht hq]
    rfl
  · exact open_iff
  · intro n index ho
    obtain ⟨m, hb, hg⟩ := h.exists_giving ht (openCall?_of_call ho)
    rw [delivered_of_blockOf? hb, hg.all]

/-! ## The pieces that count -/

/-- What the chunks bring of the arguments of a call : of each chunk what its first delta
for the call carries, unless that is empty. -/
def fragmentsOf (index : Nat) (chunks : List Chat.Chunk) : List String :=
  chunks.filterMap fun chunk =>
    ((callDeltas chunk).find? fun d => d.index = index).bind fun d => Chat.nonEmpty? d.arguments?

/-- The pieces of a call that count : of each chunk the first one for the call. -/
def deltasOf (index : Nat) (chunks : List Chat.Chunk) : List Chat.ToolCallDelta :=
  chunks.filterMap fun chunk => (callDeltas chunk).find? fun d => d.index = index

theorem filter_firstPieces (index : Nat) : ∀ (seen : List Nat) (ds : List Chat.ToolCallDelta),
    ((firstPieces seen ds).filter fun d => d.index = index) =
      if index ∈ seen then [] else (ds.find? fun d => d.index = index).toList
  | seen, [] => by simp [firstPieces]
  | seen, d :: ds => by
    unfold firstPieces
    by_cases hs : seen.contains d.index = true
    · rw [if_pos hs, filter_firstPieces index seen ds]
      have hm : d.index ∈ seen := by simpa using hs
      by_cases hi : d.index = index
      · rw [if_pos (hi ▸ hm), if_pos (hi ▸ hm)]
      · rw [List.find?_cons_of_neg (by simpa using hi)]
    · rw [if_neg hs]
      have hm : d.index ∉ seen := by simpa using hs
      by_cases hi : d.index = index
      · subst hi
        rw [List.filter_cons_of_pos (by simp), filter_firstPieces d.index _ ds, if_neg hm,
          if_pos List.mem_cons_self, List.find?_cons_of_pos (by simp)]
        rfl
      · rw [List.filter_cons_of_neg (by simpa using hi), filter_firstPieces index _ ds,
          List.find?_cons_of_neg (by simpa using hi)]
        simp [Ne.symm hi]

/-- Empty pieces bring nothing. -/
theorem argumentsOf_eq_join (ds : List Chat.ToolCallDelta) :
    argumentsOf ds = String.join (ds.filterMap fun d => Chat.nonEmpty? d.arguments?) := by
  induction ds with
  | nil => rfl
  | cons d ds ih =>
    rw [argumentsOf] at ih ⊢
    rw [List.filterMap_cons, List.filterMap_cons]
    cases ha : d.arguments? with
    | none => exact ih
    | some s =>
      have hs : Chat.nonEmpty? (some s) = if s = "" then none else some s := by
        by_cases h : s = "" <;> simp [Chat.nonEmpty?, Option.filter, h]
      rw [hs]
      by_cases h : s = ""
      · rw [if_pos h, h, String.join_cons, String.empty_append, ih]
      · rw [if_neg h, String.join_cons, String.join_cons, ih]

theorem argumentsOf_append_piece (past rest : List Input) {d : Chat.ToolCallDelta} {s : String}
    (hi : d.index = index) (hd : d.arguments? = some s) :
    argumentsOf (piecesOf index (past ++ .piece d :: rest)) =
      argumentsOf (piecesOf index past) ++ (s ++ argumentsOf (piecesOf index rest)) := by
  have hone : piecesOf index (.piece d :: rest) = d :: piecesOf index rest := by
    rw [← List.singleton_append, piecesOf_append]
    simp [piecesOf, pieces, Input.piece?, hi]
  rw [piecesOf_append, hone, argumentsOf, List.filterMap_append, String.join_append,
    List.filterMap_cons, hd, String.join_cons]
  rfl

theorem piecesOf_inputs (index : Nat) (actions : List (Action Chat.Chunk)) :
    piecesOf index (inputs actions) = deltasOf index (heard actions) := by
  rw [inputs]
  induction heard actions with
  | nil => rfl
  | cons chunk chunks ih =>
    have hp : piecesOf index (chunkInputs chunk) =
        ((callDeltas chunk).find? fun d => d.index = index).toList := by
      rw [piecesOf, pieces_chunkInputs, filter_firstPieces, if_neg List.not_mem_nil]
    rw [List.flatMap_cons, piecesOf_append, ih, hp, deltasOf, deltasOf, List.filterMap_cons]
    cases (callDeltas chunk).find? fun d => d.index = index <;> rfl

theorem argumentsOf_inputs (index : Nat) (actions : List (Action Chat.Chunk)) :
    argumentsOf (piecesOf index (inputs actions)) =
      String.join (fragmentsOf index (heard actions)) := by
  rw [piecesOf_inputs, argumentsOf_eq_join, deltasOf, List.filterMap_filterMap]
  rfl

/-! ## Runs -/

section Runs

variable (model : String) (promptTokens : Nat) (now : Instant)

/-- A relay that has opened its message and taken inputs, with its events. -/
def taken (xs : List Input) : Merging × List Event :=
  openMessage.seq (feed xs) (start model promptTokens now)

/-- Arguments for a call come when its block has been stopped. -/
def Late (xs : List Input) (index : Nat) : Prop :=
  ∃ past d rest, xs = past ++ .piece d :: rest ∧ d.index = index ∧
    (Chat.nonEmpty? d.arguments?).isSome = true ∧
    IsStopped (indicesOf (pieces past)) (taken model promptTokens now past).2 index

theorem Late.mem_indicesOf {xs : List Input} (h : Late model promptTokens now xs index) :
    index ∈ indicesOf (pieces xs) := by
  obtain ⟨past, d, rest, rfl, hi, -⟩ := h
  rw [pieces_append]
  exact Merging.mem_indicesOf.mpr ⟨d, List.mem_append_right _ List.mem_cons_self, hi⟩

theorem Late.inputs_ne_nil {xs : List Input} (h : Late model promptTokens now xs index) :
    xs ≠ [] := by
  obtain ⟨past, d, rest, rfl, -⟩ := h
  exact List.append_ne_nil_of_right_ne_nil past (List.cons_ne_nil _ rest)

theorem taken_fst (xs : List Input) : (taken model promptTokens now xs).1 =
    (feed xs (opened model promptTokens now)).1 :=
  rfl

theorem atRest_taken (xs : List Input) : AtRest (taken model promptTokens now xs).1 :=
  (atRest_opened model promptTokens now).feed xs

theorem taken_knows (xs : List Input) : Knows xs (taken model promptTokens now xs).1 :=
  feed_knows (atRest_opened model promptTokens now) rfl xs

theorem taken_concat (xs : List Input) (x : Input) : taken model promptTokens now (xs ++ [x]) =
    ((x.take (taken model promptTokens now xs).1).1,
      (taken model promptTokens now xs).2 ++ (x.take (taken model promptTokens now xs).1).2) := by
  rw [taken, feed_concat, ← Step.seq_assoc, Step.seq_apply]
  rfl

theorem taken_mono {xs ys : List Input} (h : xs <+: ys) :
    (taken model promptTokens now xs).2 <+: (taken model promptTokens now ys).2 := by
  obtain ⟨rest, rfl⟩ := h
  rw [taken, taken, feed_append, ← Step.seq_assoc, Step.seq_apply]
  exact List.prefix_append _ _

theorem read?_taken (xs : List Input) : Place.before.read? (taken model promptTokens now xs).2 =
    some (taken model promptTokens now xs).1.place := by
  have hm : Place.before.read? [openingEvent model promptTokens now] =
      some (opened model promptTokens now).place := rfl
  exact Place.read?_append_of_eq hm ((atRest_opened model promptTokens now).read?_feed xs)

/-- What comes late is all that the blocks of stopped calls lack. -/
theorem passed_taken (xs : List Input) {past : List Input} (h : past <+: xs) :
    Passed (Late model promptTokens now xs) true (taken model promptTokens now past).2
      (taken model promptTokens now past).1 := by
  induction past using List.reverseRecOn with
  | nil => exact passed_of_no_calls _ _ rfl rfl rfl rfl fun _ => rfl
  | append_singleton past x ih =>
    obtain ⟨rest, rfl⟩ := h
    rw [List.append_assoc, List.singleton_append] at ih ⊢
    rw [taken_concat]
    refine (ih (List.prefix_append past _)).take (atRest_taken model promptTokens now past) x
      (.inl rfl) fun d hd ha hs => ?_
    have hx : x = .piece d := by
      cases x with
      | piece e => exact congrArg _ (Option.some.inj hd)
      | report usage | thinking content signature | text s => cases hd
    rw [(taken_knows model promptTokens now past).arrived] at hs
    exact ⟨past, d, rest, by rw [hx], rfl, ha, hs⟩

theorem faithful_taken (xs : List Input) : Faithful xs (taken model promptTokens now xs).1
    (taken model promptTokens now xs).2 :=
  (passed_taken model promptTokens now xs (List.prefix_refl xs)).faithful
    (atRest_taken model promptTokens now xs).toTidy (taken_knows model promptTokens now xs)
    fun _ _ => not_blockStop_of_open (read?_taken model promptTokens now xs)

/-- What is late adds to the arguments of a call, and not to what its block was given. -/
theorem Late.ne_delivered {xs : List Input} (h : Late model promptTokens now xs index)
    {p q : Place} (he : (taken model promptTokens now xs).2 <+: es)
    (hr : p.read? es = some q) :
    argumentsOf (piecesOf index xs) ≠ delivered (indicesOf (pieces xs)) es index := by
  obtain ⟨past, d, rest, rfl, hi, ha, hs⟩ := h
  obtain ⟨s, ha⟩ := Option.isSome_iff_exists.mp ha
  obtain ⟨hd, hne⟩ := Option.filter_eq_some_iff.mp ha
  have hp : past <+: past ++ .piece d :: rest := List.prefix_append past _
  have hind : indicesOf (pieces past) <+: indicesOf (pieces (past ++ .piece d :: rest)) := by
    rw [pieces_append, indicesOf, indicesOf, List.map_append, List.eraseDups_append]
    exact List.prefix_append _ _
  have hsame := hs.delivered hind ((taken_mono model promptTokens now hp).trans he) hr
  obtain ⟨lack, hl⟩ := (faithful_taken model promptTokens now past).front index
  rw [(taken_knows model promptTokens now past).getD_arguments?] at hl
  rw [hsame, argumentsOf_append_piece past rest hi hd, hl, String.append_assoc]
  intro heq
  have hs := (String.append_eq_empty_iff.mp (String.append_eq_left_iff.mp heq)).2
  rw [(String.append_eq_empty_iff.mp hs).1] at hne
  cases hne

/-! ## Whole runs -/

theorem heard_append (actions later : List (Action Chat.Chunk)) :
    heard actions <+: heard (actions ++ later) := by
  induction actions with
  | nil => exact List.nil_prefix
  | cons a actions ih =>
    cases a with
    | accept chunk =>
      simp only [List.cons_append, heard]
      refine (List.prefix_cons_inj chunk).mpr ?_
      split
      · exact List.nil_prefix
      · exact ih
    | finish | close => exact List.nil_prefix

theorem arrivals_append (actions later : List (Action Chat.Chunk)) :
    arrivals actions <+: arrivals (actions ++ later) := by
  obtain ⟨rest, hr⟩ := heard_append actions later
  rw [arrivals, arrivals, indicesOf, indicesOf, ← hr, List.flatMap_append, List.map_append,
    List.eraseDups_append]
  exact List.prefix_append _ _

theorem inputs_of_not_opens {actions : List (Action Chat.Chunk)} (h : ¬ opens actions = true) :
    inputs actions = [] := by
  match actions, h with
  | [], _ | .close :: _, _ => rfl

/-- A message that ends has been opened. -/
theorem opens_of_stopped {actions : List (Action Chat.Chunk)} {reason : StopReason}
    (stopped : ending actions = .stopped reason) : opens actions = true := by
  match actions, stopped with
  | .accept _ :: _, _ | .finish :: _, _ => rfl

variable [Tokenizer]

theorem Passed.closeMessage {late : Nat → Prop} (h : Passed late true es r) (ht : Tidy r)
    (reason : StopReason) : Passed late true (es ++ (closeMessage reason r).2)
      (closeMessage reason r).1 := by
  have hf : Tidy { r with phase := .finishing } := { ht with }
  have hp : Passed late true es { r with phase := .finishing } := h.congr rfl rfl rfl rfl
  have hs := hp.settle hf
  rw [closeMessage_eq reason ht, ← List.append_assoc]
  rw [settle_fst hf.known] at hs
  exact (hs.append rfl fun _ => rfl).congr rfl rfl rfl rfl

theorem Tidy.closeMessage (ht : Tidy r) (reason : StopReason) :
    Tidy (closeMessage reason r).1 := by
  rw [closeMessage_eq reason ht]
  exact ⟨nofun, ht.distinct, List.nil_suffix, nofun⟩

theorem Knows.closeMessage {xs : List Input} (h : Knows xs r) (ht : Tidy r)
    (reason : StopReason) : Knows xs (closeMessage reason r).1 := by
  rw [closeMessage_eq reason ht]
  exact ⟨h.arrived, h.known⟩

theorem run_start_eq_taken {actions : List (Action Chat.Chunk)} (h : opens actions = true) :
    run actions (start model promptTokens now) =
      (((ending actions).step (taken model promptTokens now (inputs actions)).1).1,
        (taken model promptTokens now (inputs actions)).2 ++
          ((ending actions).step (taken model promptTokens now (inputs actions)).1).2) := by
  rw [run_start model promptTokens now h, Step.all_cons, Step.all_cons, ← Step.seq_assoc,
    Step.seq_apply, Step.all_cons, Step.all_nil, Step.seq_emit_nil]
  rfl

/-- However a run goes, its events have given the blocks of calls what the invariant says. -/
theorem passed_run_start (actions : List (Action Chat.Chunk)) :
    let out := run actions (start model promptTokens now)
    Passed (Late model promptTokens now (inputs actions)) true out.2 out.1 ∧ Tidy out.1 ∧
      Knows (inputs actions) out.1 ∧
      ∀ n kind, out.1.openBlock = some ⟨n, kind⟩ → .blockStop n ∉ out.2 := by
  intro out
  by_cases ho : opens actions = true
  · have hp := passed_taken model promptTokens now (inputs actions) (List.prefix_refl _)
    have ht := (atRest_taken model promptTokens now (inputs actions)).toTidy
    have hk := taken_knows model promptTokens now (inputs actions)
    have hg : ∀ n kind, (taken model promptTokens now (inputs actions)).1.openBlock =
        some ⟨n, kind⟩ → .blockStop n ∉ (taken model promptTokens now (inputs actions)).2 :=
      fun _ _ => not_blockStop_of_open (read?_taken model promptTokens now _)
    have he : out = _ := run_start_eq_taken model promptTokens now ho
    rw [he]
    cases ending actions with
    | none =>
      rw [Ending.step, Step.emit, List.append_nil]
      exact ⟨hp, ht, hk, hg⟩
    | left =>
      rw [Ending.step, Step.silent, List.append_nil]
      exact ⟨hp.congr rfl rfl rfl rfl, { ht with }, ⟨hk.arrived, hk.known⟩, hg⟩
    | stopped reason =>
      refine ⟨hp.closeMessage ht reason, ht.closeMessage reason, hk.closeMessage ht reason, ?_⟩
      intro n kind hb
      rw [Ending.step, closeMessage_eq reason ht] at hb
      cases hb
  · obtain ⟨hr, he⟩ := run_start_of_not_opens model promptTokens now (Bool.eq_false_iff.mpr ho)
    have ht := (atRest_start model promptTokens now).toTidy
    have hout : out = _ := hr
    rw [hout, inputs_of_not_opens ho]
    rcases he with he | he <;> rw [he]
    all_goals
      exact ⟨passed_of_no_calls _ _ rfl rfl rfl rfl fun _ => rfl, { ht with },
        ⟨rfl, fun _ => rfl⟩, fun _ _ _ => List.not_mem_nil⟩

/-- At the end of the message no block is open, and no call waits. -/
theorem idle_run_start {actions : List (Action Chat.Chunk)} {reason : StopReason}
    (stopped : ending actions = .stopped reason) :
    let out := run actions (start model promptTokens now)
    out.1.openCall? = none ∧ out.1.queued = [] := by
  intro out
  have he : out = _ := run_start_eq_taken model promptTokens now (opens_of_stopped stopped)
  rw [he, stopped, Ending.step,
    closeMessage_eq reason (atRest_taken model promptTokens now _).toTidy]
  exact ⟨rfl, rfl⟩

/-- The events for the inputs come first. -/
theorem taken_prefix_run_start {actions : List (Action Chat.Chunk)} (h : inputs actions ≠ []) :
    (taken model promptTokens now (inputs actions)).2 <+:
      (run actions (start model promptTokens now)).2 := by
  have ho : opens actions = true := by
    by_contra ho
    exact h (inputs_of_not_opens ho)
  rw [run_start_eq_taken model promptTokens now ho]
  exact List.prefix_append _ _

/-- At every point of a run the relay keeps of the arguments of each call what the chunks
have brought, up to the one that ends the message, and has given its block a front of
that : nothing while the call waits, all of it while the block is open, and nothing more
once it was stopped. At the end of the message a block lacks something of the arguments
exactly if some of them came after its stop. -/
theorem run_start_faithful (actions : List (Action Chat.Chunk)) :
    let out := run actions (start model promptTokens now)
    (∀ index, out.1.arguments? index = if index ∈ arrivals actions then
        some (String.join (fragmentsOf index (heard actions))) else none) ∧
      Faithful (inputs actions) out.1 out.2 ∧
      (∀ past, past <+: inputs actions → past ≠ [] →
        (taken model promptTokens now past).2 <+: out.2 ∧
          Faithful past (taken model promptTokens now past).1
            (taken model promptTokens now past).2) ∧
      (∀ index, IsStopped (arrivals actions) out.2 index → ∀ later,
        delivered (arrivals (actions ++ later))
          (run (actions ++ later) (start model promptTokens now)).2 index =
            delivered (arrivals actions) out.2 index) ∧
      ∀ reason, ending actions = .stopped reason → ∀ index,
        ((out.1.arguments? index).getD "" = delivered (arrivals actions) out.2 index ↔
          ¬ Late model promptTokens now (inputs actions) index) := by
  intro out
  obtain ⟨hp, ht, hk, hg⟩ := passed_run_start model promptTokens now actions
  obtain ⟨place, hread, -⟩ := read?_run_start model promptTokens now actions
  refine ⟨fun index => ?_, hp.faithful ht hk hg, fun past hpast hne => ⟨?_, ?_⟩, ?_, ?_⟩
  · rw [hk.arguments?, indicesOf_inputs, argumentsOf_inputs]
  · refine (taken_mono model promptTokens now hpast).trans
      (taken_prefix_run_start model promptTokens now fun hnil => hne ?_)
    rw [hnil] at hpast
    exact List.prefix_nil.mp hpast
  · exact faithful_taken model promptTokens now past
  · intro index hs later
    obtain ⟨q, hq, -⟩ := read?_run_start model promptTokens now (actions ++ later)
    refine hs.delivered (arrivals_append actions later) ?_ hq
    rw [run_append, Step.seq_apply]
    exact List.prefix_append _ _
  · intro reason stopped index
    rw [← indicesOf_inputs, ← hk.arrived]
    constructor
    · intro heq hlate
      have hne := hlate.inputs_ne_nil
      refine hlate.ne_delivered model promptTokens now
        (taken_prefix_run_start model promptTokens now hne) hread ?_
      rw [← hk.arrived, ← heq, hk.arguments?, if_pos hlate.mem_indicesOf, Option.getD_some]
    · obtain ⟨ho, hq⟩ := idle_run_start model promptTokens now stopped
      exact hp.eq_delivered ho hq

end Runs

/-- Text cuts a call short : the brace that comes later is kept, and not passed on. -/
example :
    let actions := [.accept (callChunk [⟨0, some "a", true, some (some "f", some "\x7b")⟩]),
      .accept ⟨"", "", 0, "", [⟨0, { Chat.Delta.empty with content := some "x" }, none⟩], none⟩,
      .accept (callChunk [⟨0, none, true, some (none, some "\x7d")⟩]), .finish]
    let out := run actions (start "m" 1 ⟨0⟩)
    out.1.arguments? 0 = some "\x7b\x7d" ∧ delivered (arrivals actions) out.2 0 = "\x7b" := by
  decide +kernel

end Switchboard.Relay.Merging
