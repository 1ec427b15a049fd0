import Switchboard.Proofs.Merging.Delivered
import Switchboard.Proofs.Message.Pieces

/-!
# What is passed on of the arguments of calls

The blocks of calls are those of the calls that have arrived, in the same order
(`blockOf?`). At any time the block of a call has been given a front of the arguments of
the call, all of them while it is open (`Passed`). What is missing from a block that was
stopped came too late, and a block that was stopped without need holds a whole object.

Every move keeps this, as long as arguments grow only where a block is open, where a call
waits, or too late (`Move.passed`).
-/

namespace Switchboard.Relay.Merging

open Claude (Event callNumbers inputOf)

variable {cut cut' : Bool} {late : Nat → Prop} {r r' : Merging} {es xs : List Event}

/-! ## The blocks of calls -/

/-- The number of the block of the call with an index, given the indices of the calls in
the order they arrived. -/
def blockOf? (arrived : List Nat) (events : List Event) (index : Nat) : Option Nat :=
  (arrived.zip (callNumbers events)).lookup index

/-- What the block of a call was given. -/
def delivered (arrived : List Nat) (events : List Event) (index : Nat) : String :=
  ((blockOf? arrived events index).map fun n => inputOf n events).getD ""

/-- The block of a call was stopped. -/
def IsStopped (arrived : List Nat) (events : List Event) (index : Nat) : Prop :=
  ∃ n, blockOf? arrived events index = some n ∧ .blockStop n ∈ events

/-! ## The invariant -/

/-- The number of blocks that were stopped. -/
def stopped (r : Merging) : Nat := r.openBlock.elim r.nextIndex (·.index)

/-- The block of a call was stopped. It was given a front of the arguments, all of them
unless some came late, and it was not cut short. -/
structure Given (late : Nat → Prop) (cut : Bool) (es : List Event) (r : Merging)
    (index n : Nat) : Prop where
  below : n < r.stopped
  isStopped : .blockStop n ∈ es
  front : ∃ rest, r.arguments? index = some (inputOf n es ++ rest) ∧ (¬ late index → rest = "")
  whole : cut = true ∨ isWholeObject (inputOf n es) = true

/-- The block of a call is open, and was given all its arguments. -/
structure Giving (es : List Event) (r : Merging) (index n : Nat) : Prop where
  isOpen : r.openBlock = some ⟨n, .call index⟩
  all : r.arguments? index = some (inputOf n es)

/-- The events have started the blocks of stopped calls, then that of the open one. -/
structure Passed (late : Nat → Prop) (cut : Bool) (es : List Event) (r : Merging) : Prop where
  fresh : ∀ n, r.nextIndex ≤ n → inputOf n es = ""
  calls : ∃ closed numbers current, r.calls.indices = closed ++ r.openCall?.toList ++ r.queued ∧
    callNumbers es = numbers ++ current ∧ List.Forall₂ (Given late cut es r) closed numbers ∧
    List.Forall₂ (Giving es r) r.openCall?.toList current

/-- No block of a call has been started if no call has arrived. -/
theorem passed_of_no_calls (late : Nat → Prop) (cut : Bool) (calls : r.calls = [])
    (queued : r.queued = []) (idle : r.openCall? = none) (numbers : callNumbers es = [])
    (fresh : ∀ n, inputOf n es = "") : Passed late cut es r where
  fresh n _ := fresh n
  calls := ⟨[], [], [], by rw [calls, queued, idle]; rfl, numbers, .nil, by rw [idle]; exact .nil⟩

theorem stopped_of_open {b : OpenBlock} (h : r.openBlock = some b) : r.stopped = b.index := by
  rw [stopped, h, Option.elim_some]

theorem stopped_of_idle (h : r.openBlock = none) : r.stopped = r.nextIndex := by
  rw [stopped, h, Option.elim_none]

/-- A stopped block stays as it is while its call gets no arguments and no event is for it. -/
theorem Given.mono {index n : Nat} (h : Given late cut es r index n)
    (more : r.stopped ≤ r'.stopped) (same : r'.arguments? index = r.arguments? index)
    (other : inputOf n xs = "") : Given late cut (es ++ xs) r' index n := by
  have he : inputOf n (es ++ xs) = inputOf n es := by
    rw [Claude.inputOf_append, other, String.append_empty]
  refine ⟨Nat.lt_of_lt_of_le h.below more, List.mem_append_left xs h.isStopped, ?_, ?_⟩
  · rw [same, he]
    exact h.front
  · rw [he]
    exact h.whole

/-- The open call is not among the stopped ones, and neither are those that wait. -/
theorem Tidy.not_mem_closed (ht : Tidy r) {closed : List Nat} {index : Nat}
    (h : r.calls.indices = closed ++ r.openCall?.toList ++ r.queued)
    (hi : r.openCall? = some index ∨ index ∈ r.queued) : index ∉ closed := by
  have hd := ht.distinct
  rw [h, List.append_assoc] at hd
  intro hc
  refine (List.nodup_append.mp hd).2.2 index hc index ?_ rfl
  rcases hi with hi | hi
  · simp [hi]
  · exact List.mem_append_right _ hi

/-! ## Moves -/

theorem inputOf_callEvents (n m : Nat) (c : Call) :
    inputOf m (callEvents n c) = if m = n then c.arguments else "" := by
  unfold callEvents
  rw [Claude.inputOf_cons_of_none rfl]
  split
  case isTrue he =>
    rw [String.isEmpty_iff.mp he, ite_self]
    rfl
  case isFalse he =>
    by_cases hm : m = n
    · simp [inputOf, Event.pieceFor?, hm]
    · rw [if_neg hm, Claude.inputOf_cons_of_none (Claude.pieceFor?_of_ne (Ne.symm hm) _)]
      rfl

theorem callNumbers_callEvents (n : Nat) (c : Call) : callNumbers (callEvents n c) = [n] := by
  unfold callEvents
  split <;> rfl

theorem callNumbers_of_form {n : Nat} {block : Claude.Block} {form : Claude.Form}
    (fresh : block.form? = some form) (plain : form ≠ .toolUse) :
    callNumbers [.blockStart n block] = [] := by
  cases block with
  | toolUse id name input =>
    refine absurd (Option.some.inj (fresh.symm.trans ?_)) plain
    unfold Claude.Block.form? at fresh ⊢
    split at fresh <;> simp_all
  | _ => rfl

/-- Only tool uses are given input. -/
theorem pieceFor?_of_form {n m : Nat} {delta : Claude.Delta} {form : Claude.Form}
    (fits : delta.form? = some form) (plain : form ≠ .toolUse) :
    (Event.blockDelta n delta).pieceFor? m = none := by
  cases delta with
  | inputJson s => exact absurd (Option.some.inj fits).symm plain
  | text s | thinking s | signature s | other value => rfl

theorem Passed.stop {b : OpenBlock} (h : Passed late cut es r) (ht : Tidy r)
    (isOpen : r.openBlock = some b) (fair : cut = true ∨ r.openCallIsWhole? ≠ some false) :
    Passed late cut (es ++ [.blockStop b.index]) { r with openBlock := none } := by
  obtain ⟨closed, numbers, current, hi, hn, hg, hc⟩ := h.calls
  have hx : ∀ n, inputOf n (es ++ [.blockStop b.index]) = inputOf n es := fun n => by
    rw [Claude.inputOf_append]
    exact String.append_empty
  have hs : r.stopped < ({ r with openBlock := none } : Merging).stopped := by
    rw [stopped_of_open isOpen, stopped_of_idle rfl, ht.numbered b isOpen]
    exact Nat.lt_succ_self _
  refine ⟨fun n hle => (hx n).trans (h.fresh n hle), closed ++ r.openCall?.toList,
    numbers ++ current, [], ?_, ?_, ?_, .nil⟩
  · show r.calls.indices = _ ++ [] ++ r.queued
    rw [hi, List.append_nil]
  · rw [Claude.callNumbers_append, hn, List.append_nil]
    exact List.append_nil _
  · refine List.rel_append (hg.imp fun _ _ hd => hd.mono (Nat.le_of_lt hs) rfl rfl)
      (hc.imp fun i n hd => ?_)
    have hb : n = b.index := by
      have := hd.isOpen.symm.trans isOpen
      exact congrArg OpenBlock.index (Option.some.inj this)
    refine ⟨?_, ?_, ⟨"", ?_, fun _ => rfl⟩, ?_⟩
    · rw [hb, ← stopped_of_open isOpen]
      exact hs
    · rw [hb]
      exact List.mem_append_right _ List.mem_cons_self
    · rw [hx, String.append_empty]
      exact hd.all
    · rw [hx]
      refine fair.imp_right fun hf => ?_
      rw [openCallIsWhole?_of_call hd.isOpen, hd.all] at hf
      simpa using hf

theorem Passed.start {kind : BlockKind} {block : Claude.Block} (h : Passed late cut es r)
    (idle : r.openBlock = none) (plain : kind.form ≠ .toolUse)
    (fresh : block.form? = some kind.form) :
    Passed late cut (es ++ [.blockStart r.nextIndex block])
      { r with nextIndex := r.nextIndex + 1, openBlock := some ⟨r.nextIndex, kind⟩ } := by
  obtain ⟨closed, numbers, current, hi, hn, hg, hc⟩ := h.calls
  have ho := openCall?_of_idle idle
  have ho' : ({ r with nextIndex := r.nextIndex + 1, openBlock := some ⟨r.nextIndex, kind⟩ } :
      Merging).openCall? = none := by
    cases kind with
    | text | thinking => rfl
    | call index => exact absurd rfl plain
  rw [ho] at hi hc
  refine ⟨fun n hle => ?_, closed, numbers, current, ?_, ?_, ?_, ?_⟩
  · rw [Claude.inputOf_append, h.fresh n (Nat.le_of_succ_le hle)]
    rfl
  · rw [ho']
    exact hi
  · rw [Claude.callNumbers_append, callNumbers_of_form fresh plain, List.append_nil, hn]
  · refine hg.imp fun i n hd => hd.mono (Nat.le_of_eq ?_) rfl rfl
    rw [stopped_of_idle idle, stopped_of_open rfl]
  · rw [ho']
    cases hc
    exact .nil

theorem Passed.call {index : Nat} {c : Call} {rest : List Nat} (h : Passed late cut es r)
    (idle : r.openBlock = none) (first : r.queued = index :: rest)
    (known : r.calls.lookup index = some c) :
    Passed late cut (es ++ callEvents r.nextIndex c)
      { r with
        nextIndex := r.nextIndex + 1
        openBlock := some ⟨r.nextIndex, .call index⟩
        queued := rest } := by
  obtain ⟨closed, numbers, current, hi, hn, hg, hc⟩ := h.calls
  have ho := openCall?_of_idle idle
  rw [ho] at hi hc
  obtain rfl := List.forall₂_nil_left_iff.mp hc
  refine ⟨fun n hle => ?_, closed, numbers, [r.nextIndex], ?_, ?_, ?_, .cons ⟨rfl, ?_⟩ .nil⟩
  · have hn : n ≠ r.nextIndex := Nat.ne_of_gt hle
    rw [Claude.inputOf_append, h.fresh n (Nat.le_of_succ_le hle), inputOf_callEvents, if_neg hn]
    rfl
  · rw [first] at hi
    simpa [openCall?] using hi
  · rw [Claude.callNumbers_append, callNumbers_callEvents, hn, List.append_nil]
  · refine hg.imp fun i n hd => hd.mono (Nat.le_of_eq ?_) rfl ?_
    · rw [stopped_of_idle idle, stopped_of_open rfl]
    · have hb := hd.below
      rw [stopped_of_idle idle] at hb
      rw [inputOf_callEvents, if_neg (Nat.ne_of_lt hb)]
  · rw [Claude.inputOf_append, h.fresh _ (Nat.le_refl _), inputOf_callEvents, if_pos rfl,
      String.empty_append, arguments?]
    exact congrArg (Option.map _) known

/-- Events that neither start the block of a call nor bring input make no difference. -/
theorem Passed.append (h : Passed late cut es r) (numbers : callNumbers xs = [])
    (other : ∀ n, inputOf n xs = "") : Passed late cut (es ++ xs) r := by
  obtain ⟨closed, numbers', current, hi, hn, hg, hc⟩ := h.calls
  refine ⟨fun n hle => ?_, closed, numbers', current, hi, ?_, hg.imp fun i n hd => ?_,
    hc.imp fun i n hd => ?_⟩
  · rw [Claude.inputOf_append, other, h.fresh n hle]
    rfl
  · rw [Claude.callNumbers_append, hn, numbers, List.append_nil]
  · exact hd.mono (Nat.le_refl _) rfl (other n)
  · refine ⟨hd.isOpen, ?_⟩
    rw [Claude.inputOf_append, other, String.append_empty]
    exact hd.all

theorem Passed.say {b : OpenBlock} {delta : Claude.Delta} (h : Passed late cut es r)
    (plain : b.kind.form ≠ .toolUse) (fits : delta.form? = some b.kind.form) :
    Passed late cut (es ++ [.blockDelta b.index delta]) r :=
  h.append rfl fun _ => Claude.inputOf_cons_of_none (pieceFor?_of_form fits plain) []

theorem Passed.grow {n index : Nat} (h : Passed late cut es r) (ht : Tidy r)
    (isOpen : r.openBlock = some ⟨n, .call index⟩) (s : String) :
    Passed late cut (es ++ [.blockDelta n (.inputJson s)]) (r.keep index s) := by
  obtain ⟨closed, numbers, current, hi, hn, hg, hc⟩ := h.calls
  have ho := openCall?_of_call isOpen
  have hx : ∀ m, m ≠ n → inputOf m [.blockDelta n (.inputJson s)] = "" := fun m hm =>
    Claude.inputOf_cons_of_none (Claude.pieceFor?_of_ne (Ne.symm hm) _) []
  have hk : (r.keep index s).openCall? = r.openCall? := rfl
  refine ⟨fun m hle => ?_, closed, numbers, current, ?_, ?_, ?_, ?_⟩
  · have hm : m ≠ n := by
      have hle : r.nextIndex ≤ m := hle
      rw [ht.numbered _ isOpen] at hle
      exact Nat.ne_of_gt hle
    rw [Claude.inputOf_append, hx m hm, h.fresh m hle]
    rfl
  · rw [keep_indices, hi, hk, keep_queued]
  · rw [Claude.callNumbers_append, hn]
    exact List.append_nil _
  · refine forall₂_imp_of_mem hg fun i hic m hd => ?_
    have hne : i ≠ index := fun he => ht.not_mem_closed hi (.inl ho) (he ▸ hic)
    refine hd.mono (Nat.le_refl _) (by rw [arguments?_keep, if_neg hne]) (hx m ?_)
    have hb := hd.below
    rw [stopped_of_open isOpen] at hb
    exact Nat.ne_of_lt hb
  · rw [hk]
    refine hc.imp fun i m hd => ?_
    obtain ⟨rfl, hb⟩ := OpenBlock.mk.inj (Option.some.inj (hd.isOpen.symm.trans isOpen))
    obtain rfl := BlockKind.call.inj hb
    refine ⟨hd.isOpen, ?_⟩
    rw [arguments?_keep, if_pos rfl, hd.all, Claude.inputOf_append]
    simp [inputOf, Event.pieceFor?]

/-- A stopped block stays as it is if its call gets no arguments, or gets them late. -/
theorem Given.hold {index n i : Nat} {s : String} (h : Given late cut es r index n)
    (allowed : index = i → (r.keep i s).arguments? i = r.arguments? i ∨ late i) :
    Given late cut es (r.keep i s) index n := by
  obtain ⟨rest, ha, hr⟩ := h.front
  by_cases he : index = i
  · subst he
    refine ⟨h.below, h.isStopped, ⟨rest ++ s, ?_, fun hl => ?_⟩, h.whole⟩
    · rw [arguments?_keep, if_pos rfl, ha, Option.map_some, String.append_assoc]
    · have hs := (allowed rfl).resolve_right hl
      rw [arguments?_keep, if_pos rfl, ha, Option.map_some, Option.some_inj] at hs
      rw [hr hl, String.empty_append]
      exact String.append_eq_left_iff.mp hs
  · refine ⟨h.below, h.isStopped, ⟨rest, ?_, hr⟩, h.whole⟩
    rw [arguments?_keep, if_neg he, ha]

/-- Arguments that no block takes are nothing, those of a call that waits, or late. -/
theorem Passed.hold {index : Nat} {s : String} (h : Passed late cut es r) (ht : Tidy r)
    (notOpen : r.openBlock.map (·.kind) ≠ some (.call index))
    (allowed : (r.keep index s).arguments? index = r.arguments? index ∨ index ∈ r.queued ∨
      late index) :
    Passed late cut es (r.keep index s) := by
  obtain ⟨closed, numbers, current, hi, hn, hg, hc⟩ := h.calls
  have hk : (r.keep index s).openCall? = r.openCall? := rfl
  refine ⟨h.fresh, closed, numbers, current, ?_, hn, ?_, ?_⟩
  · rw [keep_indices, hi, hk, keep_queued]
  · refine forall₂_imp_of_mem hg fun i hic m hd => hd.hold fun he => ?_
    rcases allowed with hs | hq | hl
    · exact .inl hs
    · exact absurd (he ▸ hic) (ht.not_mem_closed hi (.inr hq))
    · exact .inr hl
  · rw [hk]
    refine hc.imp fun i m hd => ⟨hd.isOpen, ?_⟩
    have hne : i ≠ index := by
      rintro rfl
      exact notOpen (by rw [hd.isOpen]; rfl)
    rw [arguments?_keep, if_neg hne]
    exact hd.all

/-- Arguments only grow. -/
theorem Move.arguments (h : Move cut r xs r') (index : Nat) :
    ∃ s, r'.arguments? index = (r.arguments? index).map (· ++ s) := by
  have same (hc : r'.calls = r.calls) :
      ∃ s, r'.arguments? index = (r.arguments? index).map (· ++ s) := by
    refine ⟨"", ?_⟩
    simp only [arguments?, hc, String.append_empty, Option.map_id']
  cases h with
  | stop isOpen fair | start idle free plain fresh | call idle first known
  | say isOpen free plain fits => exact same rfl
  | @grow n i s isOpen | @hold i s notOpen =>
    rw [arguments?_keep]
    split
    · exact ⟨s, rfl⟩
    · exact ⟨"", by simp only [String.append_empty, Option.map_id']⟩

theorem Moves.arguments (h : Moves cut r xs r') (index : Nat) :
    ∃ s, r'.arguments? index = (r.arguments? index).map (· ++ s) := by
  induction h with
  | refl r => exact ⟨"", by simp only [String.append_empty, Option.map_id']⟩
  | step first _ ih =>
    obtain ⟨s, hs⟩ := first.arguments index
    obtain ⟨t, ht⟩ := ih
    refine ⟨s ++ t, ?_⟩
    rw [ht, hs, Option.map_map]
    refine congrArg (Option.map · _) (funext fun a => ?_)
    exact String.append_assoc

/-- A move that brings no arguments keeps what is passed on. -/
theorem Move.passed (h : Move cut' r xs r') (ht : Tidy r) (le : cut' = true → cut = true)
    (same : ∀ index, r'.arguments? index = r.arguments? index) (hp : Passed late cut es r) :
    Passed late cut (es ++ xs) r' := by
  cases h with
  | stop isOpen fair => exact hp.stop ht isOpen (fair.imp_left le)
  | start idle _ plain fresh => exact hp.start idle plain fresh
  | call idle first known => exact hp.call idle first known
  | say isOpen _ plain fits => exact hp.say plain fits
  | grow isOpen => exact hp.grow ht isOpen _
  | hold notOpen =>
    rw [List.append_nil]
    exact hp.hold ht notOpen (.inl (same _))

/-- Moves bring no arguments if there are no more in the end. -/
theorem Moves.passed (h : Moves cut' r xs r') (ht : Tidy r) (le : cut' = true → cut = true)
    (same : ∀ index, r'.arguments? index = r.arguments? index) (hp : Passed late cut es r) :
    Passed late cut (es ++ xs) r' := by
  induction h generalizing es with
  | refl r =>
    rw [List.append_nil]
    exact hp
  | @step r r₁ r' xs ys first more ih =>
    have hs : ∀ index, r₁.arguments? index = r.arguments? index := by
      intro index
      obtain ⟨s, hs⟩ := first.arguments index
      obtain ⟨t, ht⟩ := more.arguments index
      have he := same index
      rw [ht, hs] at he
      rw [hs]
      cases ha : r.arguments? index with
      | none => rfl
      | some a =>
        rw [ha, Option.map_some, Option.map_some, Option.some_inj, String.append_assoc] at he
        have hst : s ++ t = "" := String.append_eq_left_iff.mp he
        rw [(String.append_eq_empty_iff.mp hst).1, Option.map_some, String.append_empty]
    rw [← List.append_assoc]
    exact ih (first.tidy ht) (fun index => (same index).trans (hs index).symm)
      (first.passed ht le hs hp)

/-! ## Finding the block of a call -/

theorem lookup_zip_of_not_mem {l ns : List Nat} {index : Nat} (h : index ∉ l) :
    (l.zip ns).lookup index = none := by
  refine List.lookup_eq_none_iff.mpr fun p hp => ?_
  have hl := (List.of_mem_zip hp).1
  simp only [bne_iff_ne, ne_eq]
  rintro rfl
  exact h hl

theorem exists_lookup_zip {R : Nat → Nat → Prop} {l ns : List Nat} (h : List.Forall₂ R l ns)
    {index : Nat} (hi : index ∈ l) : ∃ n, (l.zip ns).lookup index = some n ∧ R index n := by
  induction h with
  | nil => cases hi
  | @cons i n l ns hr _ ih =>
    by_cases he : index = i
    · subst he
      exact ⟨n, List.lookup_cons_self, hr⟩
    · have hb : (index == i) = false := by simpa using he
      obtain ⟨m, hm, hr⟩ := ih ((List.mem_cons.mp hi).resolve_left he)
      exact ⟨m, by rw [List.zip_cons_cons, List.lookup_cons, hb, hm], hr⟩

namespace Passed

variable {index : Nat}

/-- The block of a call is among the stopped ones, or it is the open one. -/
theorem exists_blockOf? (h : Passed late cut es r) : ∃ closed numbers current,
    r.calls.indices = closed ++ r.openCall?.toList ++ r.queued ∧
      List.Forall₂ (Given late cut es r) closed numbers ∧
      List.Forall₂ (Giving es r) r.openCall?.toList current ∧
      ∀ index, blockOf? r.calls.indices es index =
        ((closed.zip numbers).lookup index).or ((r.openCall?.toList.zip current).lookup index) := by
  obtain ⟨closed, numbers, current, hi, hn, hg, hc⟩ := h.calls
  refine ⟨closed, numbers, current, hi, hg, hc, fun index => ?_⟩
  have hl : (closed ++ r.openCall?.toList).length = (numbers ++ current).length := by
    rw [List.length_append, List.length_append, hg.length_eq, hc.length_eq]
  have hq : callNumbers es = (numbers ++ current) ++ [] := by rw [hn, List.append_nil]
  rw [blockOf?, hi, hq, List.zip_append hl, List.zip_append hg.length_eq, List.zip_nil_right,
    List.append_nil, List.lookup_append]

theorem blockOf?_of_queued (h : Passed late cut es r) (ht : Tidy r) (hq : index ∈ r.queued) :
    blockOf? r.calls.indices es index = none := by
  obtain ⟨closed, numbers, current, hi, hg, hc, hb⟩ := h.exists_blockOf?
  have ho : index ∉ r.openCall?.toList := by
    have hd := ht.distinct
    rw [hi] at hd
    intro ho
    exact (List.nodup_append.mp hd).2.2 index (List.mem_append_right _ ho) index hq rfl
  rw [hb, lookup_zip_of_not_mem (ht.not_mem_closed hi (.inr hq)), lookup_zip_of_not_mem ho,
    Option.none_or]

theorem exists_giving (h : Passed late cut es r) (ht : Tidy r) (ho : r.openCall? = some index) :
    ∃ n, blockOf? r.calls.indices es index = some n ∧ Giving es r index n := by
  obtain ⟨closed, numbers, current, hi, hg, hc, hb⟩ := h.exists_blockOf?
  obtain ⟨n, hn, hr⟩ := exists_lookup_zip hc (by simp [ho] : index ∈ r.openCall?.toList)
  exact ⟨n, by rw [hb, lookup_zip_of_not_mem (ht.not_mem_closed hi (.inl ho)), hn, Option.none_or],
    hr⟩

theorem exists_given (h : Passed late cut es r) (hi : index ∈ r.calls.indices)
    (ho : r.openCall? ≠ some index) (hq : index ∉ r.queued) :
    ∃ n, blockOf? r.calls.indices es index = some n ∧ Given late cut es r index n := by
  obtain ⟨closed, numbers, current, hd, hg, hc, hb⟩ := h.exists_blockOf?
  have hm : index ∈ closed := by
    rw [hd] at hi
    simpa [ho, hq] using hi
  obtain ⟨n, hn, hr⟩ := exists_lookup_zip hg hm
  exact ⟨n, by rw [hb, hn, Option.some_or], hr⟩

/-- A block that was started is open, or it was stopped. -/
theorem giving_or_given {n : Nat} (h : Passed late cut es r) (ht : Tidy r)
    (hb : blockOf? r.calls.indices es index = some n) :
    Giving es r index n ∨ Given late cut es r index n := by
  have hi : index ∈ r.calls.indices := by
    by_contra hi
    rw [blockOf?, lookup_zip_of_not_mem hi] at hb
    cases hb
  by_cases ho : r.openCall? = some index
  · obtain ⟨m, hm, hg⟩ := h.exists_giving ht ho
    obtain rfl := Option.some.inj (hm.symm.trans hb)
    exact .inl hg
  by_cases hq : index ∈ r.queued
  · rw [h.blockOf?_of_queued ht hq] at hb
    cases hb
  obtain ⟨m, hm, hg⟩ := h.exists_given hi ho hq
  obtain rfl := Option.some.inj (hm.symm.trans hb)
  exact .inr hg

end Passed

theorem delivered_of_blockOf? {arrived : List Nat} {index n : Nat}
    (h : blockOf? arrived es index = some n) : delivered arrived es index = inputOf n es := by
  rw [delivered, h, Option.map_some, Option.getD_some]

/-! ## Inputs -/

theorem arguments?_learn (x : Input) {index : Nat} (known : index ∈ r.calls.indices) :
    (x.learn r).arguments? index = r.arguments? index := by
  cases x with
  | report usage | thinking content signature | text s => rfl
  | piece d =>
    by_cases hd : d.index ∈ r.calls.indices
    · rw [Input.learn, learnCall_of_known hd]
      exact arguments?_promote d index
    · rw [Input.learn, learnCall_of_new hd]
      exact arguments?_addCall d known

/-- Calls that show up and wait make no difference. -/
theorem Passed.more (h : Passed late cut es r) {new : List Nat}
    (hi : r'.calls.indices = r.calls.indices ++ new) (hq : r'.queued = r.queued ++ new)
    (hb : r'.openBlock = r.openBlock) (hn : r'.nextIndex = r.nextIndex)
    (ha : ∀ index ∈ r.calls.indices, r'.arguments? index = r.arguments? index) :
    Passed late cut es r' := by
  obtain ⟨closed, numbers, current, hd, hnum, hg, hc⟩ := h.calls
  have ho : r'.openCall? = r.openCall? := by rw [openCall?, hb, openCall?]
  have hs : r'.stopped = r.stopped := by rw [Merging.stopped, hb, hn, Merging.stopped]
  have hm : ∀ index ∈ closed ++ r.openCall?.toList, r'.arguments? index = r.arguments? index :=
    fun index hi => ha index (by rw [hd]; exact List.mem_append_left _ hi)
  refine ⟨fun n hle => h.fresh n (hn ▸ hle), closed, numbers, current, ?_, hnum, ?_, ?_⟩
  · rw [hi, hd, ho, hq, List.append_assoc]
  · refine forall₂_imp_of_mem hg fun i hic n hx => ⟨hs ▸ hx.below, hx.isStopped, ?_, hx.whole⟩
    rw [hm i (List.mem_append_left _ hic)]
    exact hx.front
  · rw [ho]
    refine forall₂_imp_of_mem hc fun i hic n hx => ⟨hb.trans hx.isOpen, ?_⟩
    rw [hm i (List.mem_append_right _ hic)]
    exact hx.all

theorem Passed.congr (h : Passed late cut es r) (hc : r'.calls = r.calls)
    (hq : r'.queued = r.queued) (hb : r'.openBlock = r.openBlock)
    (hn : r'.nextIndex = r.nextIndex) : Passed late cut es r' :=
  h.more (by rw [hc, List.append_nil]) (by rw [hq, List.append_nil]) hb hn
    fun _ _ => by rw [arguments?, hc, arguments?]

theorem Passed.learn (h : Passed late cut es r) (x : Input) : Passed late cut es (x.learn r) := by
  obtain ⟨hb, hn⟩ := x.learn_block r
  obtain ⟨new, hi, hq⟩ := x.learn_arrived r
  exact h.more hi hq hb hn fun _ known => arguments?_learn x known

theorem Passed.onCallHead (h : Passed late cut es r) (ht : Tidy r) (hr : Rested r)
    (d : Chat.ToolCallDelta) :
    Passed late cut (es ++ (onCallHead d r).2) (onCallHead d r).1 := by
  refine (onCallHead_moves d ht hr).1.passed (learnCall_tidy ht d) nofun (fun index => ?_)
    (h.learn (.piece d))
  rw [arguments?, onCallHead_calls d ht hr]
  rfl

theorem Passed.onArguments {index : Nat} {s : String} (h : Passed late cut es r) (ht : Tidy r)
    (allowed : r.openCall? = some index ∨ index ∈ r.queued ∨ late index) :
    Passed late cut (es ++ (onArguments index s r).2) (onArguments index s r).1 := by
  rw [onArguments_eq]
  split
  case isTrue hb =>
    obtain ⟨n, hb⟩ := openBlock_of_kind hb
    have hk := ht.keep index s
    have hd := emitDelta_eq (r := r.keep index s) hb (.inputJson s)
    simp only [Step.seq_apply, hd]
    rw [← List.append_assoc]
    -- The piece goes to the open block; to go on to the next call brings no arguments.
    refine (advanceFrom_moves _ (r.keep index s) hk.known).passed hk nofun (fun i => ?_)
      (h.grow ht hb s)
    rw [arguments?, advanceFrom_calls]
    rfl
  case isFalse hb =>
    rw [List.append_nil]
    refine h.hold ht hb (.inr (allowed.resolve_left fun ho => hb ?_))
    obtain ⟨n, hn⟩ := openCall?_eq_some_iff.mp ho
    rw [hn]
    rfl

/-- A piece brings arguments to an open block or to a call that waits, unless the block of
the call was stopped, and then it is late. -/
theorem Passed.onCall (h : Passed late cut es r) (ht : Tidy r) (hr : Rested r)
    (d : Chat.ToolCallDelta) (allowed : (Chat.nonEmpty? d.arguments?).isSome = true →
      IsStopped r.calls.indices es d.index → late d.index) :
    Passed late cut (es ++ (onCall d r).2) (onCall d r).1 := by
  have hh := h.onCallHead ht hr d
  have ht' := (onCallHead_moves d ht hr).1.tidy (learnCall_tidy ht d)
  rw [Merging.onCall, Step.seq_apply, ← List.append_assoc]
  cases ha : Chat.nonEmpty? d.arguments? with
  | none => simpa [Step.forSome, Step.emit] using hh
  | some s =>
    rw [ha] at allowed
    refine hh.onArguments ht' ?_
    by_cases known : d.index ∈ r.calls.indices
    · rw [onCallHead_of_known known, learnCall_of_known known]
      by_cases ho : r.openCall? = some d.index
      · exact .inl ho
      by_cases hq : d.index ∈ r.queued
      · exact .inr (.inl hq)
      obtain ⟨n, hb, hg⟩ := h.exists_given known ho hq
      exact .inr (.inr (allowed rfl ⟨n, hb, hg.isStopped⟩))
    · obtain ⟨-, he⟩ | ⟨-, -, he⟩ := onCallHead_of_new known ht hr
      · rw [he, learnCall_of_new known]
        exact .inr (.inl (List.mem_append_right _ List.mem_cons_self))
      · rw [he]
        exact .inl (openCall?_of_call rfl)

/-- Every input keeps what is passed on, unless it cuts calls short. -/
theorem Passed.take (h : Passed late cut es r) (hr : AtRest r) (x : Input)
    (calm : cut = true ∨ x.cuts = false) (allowed : ∀ d, x.piece? = some d →
      (Chat.nonEmpty? d.arguments?).isSome = true → IsStopped r.calls.indices es d.index →
      late d.index) :
    Passed late cut (es ++ (x.take r).2) (x.take r).1 := by
  cases x with
  | piece d => exact h.onCall hr.toTidy hr.rested d (allowed d rfl)
  | report usage | thinking content signature | text s =>
    refine (hr.moves _).passed (Input.learn_tidy hr.toTidy _) (fun hc => ?_) (fun index => ?_)
      (h.learn _)
    · exact calm.resolve_right (by simp [hc])
    · rw [arguments?, lookup_take _ hr.toTidy hr.rested]
      rfl

/-- To stop the open block, and give every call that waits its block, brings no arguments. -/
theorem Passed.settle (h : Passed late true es r) (ht : Tidy r) :
    Passed late true (es ++ (settle r).2) (settle r).1 := by
  refine (settle_moves ht.known).passed ht (fun _ => rfl) (fun index => ?_) h
  rw [settle_fst ht.known]
  rfl

/-- Whatever a stopped block lacks may count as late. -/
theorem Passed.weaken {late' : Nat → Prop} (h : Passed late cut es r) (ht : Tidy r)
    (hl : ∀ index, IsStopped r.calls.indices es index → late index → late' index) :
    Passed late' true es r := by
  obtain ⟨closed, numbers, current, hd, hn, hg, hc⟩ := h.calls
  refine ⟨h.fresh, closed, numbers, current, hd, hn, ?_, hc⟩
  refine forall₂_imp_of_mem hg fun i hm n hx => ?_
  have hi : i ∈ r.calls.indices := by
    rw [hd]
    exact List.mem_append_left _ (List.mem_append_left _ hm)
  obtain ⟨m, hb, hgm⟩ := h.exists_given hi (fun ho => ht.not_mem_closed hd (.inl ho) hm)
    (fun hq => ht.not_mem_closed hd (.inr hq) hm)
  obtain ⟨rest, ha, hr⟩ := hx.front
  refine ⟨hx.below, hx.isStopped, ⟨rest, ha, fun hn => hr fun h => ?_⟩, .inl rfl⟩
  exact hn (hl i ⟨m, hb, hgm.isStopped⟩ h)

end Switchboard.Relay.Merging
