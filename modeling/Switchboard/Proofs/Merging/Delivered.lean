import Switchboard.Proofs.Json.Whole
import Switchboard.Proofs.Merging.Calls
import Switchboard.Proofs.Message.Reply

/-!
# What the blocks of calls hold

As long as a relay takes in pieces of calls only, the block of a call that was stopped
holds a whole object, with which the arguments of the call begin, and the block that is
open holds all the arguments that its call has (`Drawn`). When the message ends, the
calls that wait get theirs at once. So every call has a block in the end, and it holds
either all its arguments or a whole object at their front (`Drawn.settle`).
-/

namespace Switchboard.Relay.Merging

open Claude (Event Draft noteAll)

variable {cut : Bool} {r r' : Merging} {xs : List Event} {front ds : List Draft}

/-! ## Drafts of calls -/

/-- The draft of a call has its id and its name. -/
def Names (c : Call) (d : Draft) : Prop := d.block = .toolUse c.id c.name (.object [])

/-- The draft holds all the arguments of the call. -/
def Full (calls : Calls) (index : Nat) (d : Draft) : Prop :=
  ∃ c, calls.lookup index = some c ∧ Names c d ∧ c.arguments = d.json

/-- The draft holds a whole object, with which the arguments of the call begin. -/
def Whole (calls : Calls) (index : Nat) (d : Draft) : Prop :=
  ∃ c rest, calls.lookup index = some c ∧ Names c d ∧ c.arguments = d.json ++ rest ∧
    isWholeObject d.json = true

/-- The call whose block is open. -/
def openCall? (r : Merging) : Option Nat :=
  match r.openBlock with
  | some ⟨_, .call index⟩ => some index
  | _ => none

theorem openCall?_of_call {n index : Nat} (h : r.openBlock = some ⟨n, .call index⟩) :
    r.openCall? = some index := by
  simp only [openCall?, h]

theorem openCall?_of_idle (h : r.openBlock = none) : r.openCall? = none := by
  simp only [openCall?, h]

theorem openCall?_eq_some_iff {index : Nat} : r.openCall? = some index ↔
    ∃ n, r.openBlock = some ⟨n, .call index⟩ := by
  unfold openCall?
  split
  case h_1 n i h => simp [h]
  case h_2 h =>
    refine ⟨nofun, ?_⟩
    rintro ⟨n, hn⟩
    exact absurd hn (h n index)

/-- The drafts behind those in front are those of the calls that have a block : of stopped
calls, then of the open one. -/
structure Drawn (front : List Draft) (r : Merging) (ds : List Draft) : Prop where
  numbered : ds.length = r.nextIndex
  drafts : ∃ closed wholes current, ds = front ++ wholes ++ current ∧
    r.calls.indices = closed ++ r.openCall?.toList ++ r.queued ∧
    List.Forall₂ (Whole r.calls) closed wholes ∧
    List.Forall₂ (Full r.calls) r.openCall?.toList current

/-! ## Pieces of arguments -/

theorem Whole.keep {index : Nat} {d : Draft} (h : Whole r.calls index d) (i : Nat) (s : String) :
    Whole (r.keep i s).calls index d := by
  obtain ⟨c, rest, hc, hn, ha, hw⟩ := h
  by_cases hi : index = i
  · refine ⟨c.append s, rest ++ s, ?_, hn, ?_, hw⟩
    · simp [Merging.keep, Calls.lookup_modify, hi, hi ▸ hc, Call.append]
    · rw [Call.append, ha, String.append_assoc]
  · exact ⟨c, rest, by simp [Merging.keep, Calls.lookup_modify, hi, hc], hn, ha, hw⟩

theorem Full.keep {index i : Nat} {d : Draft} (h : Full r.calls index d) (hi : index ≠ i)
    (s : String) : Full (r.keep i s).calls index d := by
  obtain ⟨c, hc, hn, ha⟩ := h
  exact ⟨c, by simp [Merging.keep, Calls.lookup_modify, hi, hc], hn, ha⟩

theorem Full.grow {index : Nat} {d : Draft} (h : Full r.calls index d) (s : String) :
    Full (r.keep index s).calls index (d.add (.inputJson s)) := by
  obtain ⟨c, hc, hn, ha⟩ := h
  refine ⟨c.append s, by simp [Merging.keep, Calls.lookup_modify, hc, Call.append], hn, ?_⟩
  rw [Draft.json_add, Call.append, ha]

/-- The draft of a call that starts with the arguments it has. -/
theorem noteAll_callEvents {n : Nat} (h : ds.length = n) (c : Call) :
    ∃ d, noteAll ds (callEvents n c) = ds ++ [d] ∧ Names c d ∧ c.arguments = d.json := by
  unfold callEvents
  split
  case isTrue he =>
    refine ⟨⟨.toolUse c.id c.name (.object []), []⟩, rfl, rfl, ?_⟩
    simpa [Draft.json, String.isEmpty_iff] using he
  case isFalse he =>
    refine ⟨Draft.add ⟨.toolUse c.id c.name (.object []), []⟩ (.inputJson c.arguments), ?_, rfl, ?_⟩
    · exact Claude.note_last h _ _
    · rw [Draft.json_add]
      simp [Draft.json]

/-! ## Moves -/

theorem forall₂_imp_of_mem {α β : Type} {R S : α → β → Prop} {as : List α} {bs : List β}
    (h : List.Forall₂ R as bs) (imp : ∀ a ∈ as, ∀ b, R a b → S a b) : List.Forall₂ S as bs := by
  induction h with
  | nil => exact .nil
  | @cons a b as bs hr _ ih =>
    exact .cons (imp a List.mem_cons_self b hr)
      (ih fun a ha => imp a (List.mem_cons_of_mem _ ha))

/-- A whole call that is stopped keeps what is needed of its arguments. -/
theorem Full.whole {index : Nat} {d : Draft} (h : Full r.calls index d)
    (isOpen : r.openCall? = some index) (fair : r.openCallIsWhole? ≠ some false) :
    Whole r.calls index d := by
  obtain ⟨c, hc, hn, ha⟩ := h
  obtain ⟨n, hb⟩ := openCall?_eq_some_iff.mp isOpen
  refine ⟨c, "", hc, hn, by rw [ha, String.append_empty], ?_⟩
  rw [openCallIsWhole?_of_call hb, arguments?, hc] at fair
  simpa [ha] using fair

theorem Drawn.stop (h : Drawn front r ds) (fair : r.openCallIsWhole? ≠ some false) :
    Drawn front { r with openBlock := none } ds := by
  obtain ⟨closed, wholes, current, rfl, hi, hw, hf⟩ := h.drafts
  refine ⟨h.numbered, closed ++ r.openCall?.toList, wholes ++ current, [], ?_, ?_, ?_, .nil⟩
  · rw [List.append_nil, List.append_assoc]
  · show r.calls.indices = _ ++ [] ++ r.queued
    rw [hi, List.append_nil]
  · refine List.rel_append hw (forall₂_imp_of_mem hf fun i ho d hd => ?_)
    exact hd.whole (Option.mem_toList.mp ho) fair

theorem Drawn.call {index : Nat} {c : Call} {rest : List Nat} (h : Drawn front r ds)
    (idle : r.openBlock = none) (first : r.queued = index :: rest)
    (known : r.calls.lookup index = some c) :
    Drawn front { r.openCall index with queued := rest }
      (noteAll ds (callEvents r.nextIndex c)) := by
  obtain ⟨closed, wholes, current, rfl, hi, hw, hf⟩ := h.drafts
  rw [openCall?_of_idle idle] at hi hf
  obtain rfl := List.forall₂_nil_left_iff.mp hf
  obtain ⟨d, hd, hn, ha⟩ := noteAll_callEvents h.numbered c
  rw [hd]
  refine ⟨?_, closed, wholes, [d], ?_, ?_, hw, .cons ⟨c, known, hn, ha⟩ .nil⟩
  · rw [List.length_append, h.numbered]
    rfl
  · rw [List.append_nil]
  · rw [first] at hi
    simpa [openCall?, openCall] using hi

theorem Drawn.grow {n index : Nat} (h : Drawn front r ds) (ht : Tidy r)
    (isOpen : r.openBlock = some ⟨n, .call index⟩) (s : String) :
    Drawn front (r.keep index s) (noteAll ds [.blockDelta n (.inputJson s)]) := by
  obtain ⟨closed, wholes, current, rfl, hi, hw, hf⟩ := h.drafts
  have ho := openCall?_of_call isOpen
  rw [ho] at hf hi
  obtain ⟨d, rest, hd, hr, rfl⟩ := List.forall₂_cons_left_iff.mp hf
  obtain rfl := List.forall₂_nil_left_iff.mp hr
  have hn : (front ++ wholes).length = n := by
    have hl := h.numbered
    rw [ht.numbered _ isOpen, List.length_append] at hl
    exact Nat.succ.inj hl
  have hnote : noteAll (front ++ wholes ++ [d]) [.blockDelta n (.inputJson s)] =
      front ++ wholes ++ [d.add (.inputJson s)] := Claude.note_last hn d _
  rw [hnote]
  refine ⟨?_, closed, wholes, _, rfl, ?_, hw.imp fun _ _ hd => hd.keep index s, ?_⟩
  · have hl := h.numbered
    rw [List.length_append] at hl ⊢
    exact hl
  · rw [keep_indices, hi]
    exact congrArg (closed ++ Option.toList · ++ r.queued) ho.symm
  · have hk : (r.keep index s).openCall? = some index := ho
    rw [hk]
    exact .cons (hd.grow s) .nil

theorem Drawn.hold {index : Nat} (h : Drawn front r ds)
    (notOpen : r.openBlock.map (·.kind) ≠ some (.call index)) (s : String) :
    Drawn front (r.keep index s) ds := by
  obtain ⟨closed, wholes, current, rfl, hi, hw, hf⟩ := h.drafts
  refine ⟨h.numbered, closed, wholes, current, rfl, ?_, hw.imp fun _ _ hd => hd.keep index s,
    forall₂_imp_of_mem hf fun i ho d hd => hd.keep ?_ s⟩
  · rw [keep_indices, hi]
    rfl
  · obtain ⟨n, hb⟩ : ∃ n, r.openBlock = some ⟨n, .call i⟩ :=
      openCall?_eq_some_iff.mp (Option.mem_toList.mp ho)
    rintro rfl
    exact notOpen (by rw [hb]; rfl)

/-- The moves that answer pieces of calls keep the drafts of the calls. -/
theorem Move.drawn (h : Move false r xs r') (ht : Tidy r) (hd : Drawn front r ds) :
    Drawn front r' (noteAll ds xs) := by
  cases h with
  | stop isOpen fair => exact hd.stop (fair.resolve_left (by decide))
  | start idle free plain fresh => cases free
  | call idle first known => exact hd.call idle first known
  | say isOpen free plain fits => cases free
  | grow isOpen => exact hd.grow ht isOpen _
  | hold notOpen => exact hd.hold notOpen _

theorem Moves.drawn (h : Moves false r xs r') (ht : Tidy r) (hd : Drawn front r ds) :
    Drawn front r' (noteAll ds xs) := by
  induction h generalizing ds with
  | refl r => exact hd
  | step first _ ih =>
    rw [Claude.noteAll_append]
    exact ih (first.tidy ht) (first.drawn ht hd)

/-! ## Pieces of calls -/

/-- Of a call with an id and a name of its own nothing new is learnt from a piece. -/
theorem lookup_learnCall {d : Chat.ToolCallDelta} {index : Nat} {c : Call}
    (named : ∀ c, r.calls.lookup d.index = some c → c.placeholder = false)
    (h : r.calls.lookup index = some c) : (r.learnCall d).calls.lookup index = some c := by
  by_cases known : d.index ∈ r.calls.indices
  · rw [learnCall_of_known known, Calls.lookup_modify, h]
    split
    case isTrue hi =>
      subst hi
      simp [Call.promote, named c h]
    case isFalse => rfl
  · rw [learnCall_of_new known]
    simp [enqueue, addCall, List.lookup_append, h]

theorem lookup_learn {x : Input} {index : Nat} {c : Call}
    (named : ∀ d c, x.piece? = some d → r.calls.lookup d.index = some c → c.placeholder = false)
    (h : r.calls.lookup index = some c) : (x.learn r).calls.lookup index = some c := by
  cases x with
  | report usage | thinking content signature | text s => exact h
  | piece d => exact lookup_learnCall (fun c => named d c rfl) h

theorem Drawn.learn (h : Drawn front r ds) (x : Input)
    (named : ∀ d c, x.piece? = some d → r.calls.lookup d.index = some c → c.placeholder = false) :
    Drawn front (x.learn r) ds := by
  obtain ⟨hb, hn⟩ := x.learn_block r
  have ho : (x.learn r).openCall? = r.openCall? := by rw [openCall?, hb, openCall?]
  obtain ⟨new, hi, hq⟩ := x.learn_arrived r
  obtain ⟨closed, wholes, current, hd, ha, hw, hc⟩ := h.drafts
  refine ⟨h.numbered.trans hn.symm, closed, wholes, current, hd, ?_, hw.imp ?_, ?_⟩
  · rw [hi, ha, hq, ho, List.append_assoc]
  · rintro index d ⟨c, rest, hc, hd⟩
    exact ⟨c, rest, lookup_learn named hc, hd⟩
  · rw [ho]
    refine hc.imp ?_
    rintro index d ⟨c, hc, hd⟩
    exact ⟨c, lookup_learn named hc, hd⟩

theorem Drawn.take (h : Drawn front r ds) (hr : AtRest r) {x : Input} (calm : x.cuts = false)
    (named : ∀ d c, x.piece? = some d → r.calls.lookup d.index = some c → c.placeholder = false) :
    Drawn front (x.take r).1 (noteAll ds (x.take r).2) := by
  have hm := hr.moves x
  rw [calm] at hm
  exact hm.drawn (x.learn_tidy hr.toTidy) (h.learn x named)

/-- The call with pieces of which the first one has both an id and a name. -/
theorem placeholder_callOf? {now : Instant} {ds : List Chat.ToolCallDelta} {c : Call}
    (h : callOf? now ds = some c)
    (named : ∀ d, ds.head? = some d → (nameplate? d).isSome = true) : c.placeholder = false := by
  cases ds with
  | nil => cases h
  | cons d ds =>
    obtain rfl := Option.some.inj h
    obtain ⟨p, hp⟩ := Option.isSome_iff_exists.mp (named d rfl)
    simp [hp]

/-- A relay makes nothing up for calls of which the first piece has both an id and a name. -/
theorem Knows.placeholder {past rest : List Input} (hk : Knows past r)
    (named : ∀ index d, (piecesOf index (past ++ rest)).head? = some d →
      (nameplate? d).isSome = true)
    {index : Nat} {c : Call} (h : r.calls.lookup index = some c) : c.placeholder = false := by
  rw [hk.known] at h
  refine placeholder_callOf? h fun d hd => named index d ?_
  rw [piecesOf_append, List.head?_append, hd, Option.some_or]

/-- Inputs without text and reasoning keep the drafts of the calls, if the first piece of
each call has both an id and a name. -/
theorem Drawn.feed {past : List Input} (h : Drawn front r ds) (hr : AtRest r) (hk : Knows past r)
    (xs : List Input) (calm : ∀ x ∈ xs, x.cuts = false)
    (named : ∀ index d, (piecesOf index (past ++ xs)).head? = some d →
      (nameplate? d).isSome = true) :
    Drawn front (feed xs r).1 (noteAll ds (Merging.feed xs r).2) := by
  induction xs generalizing r ds past with
  | nil => exact h
  | cons x xs ih =>
    have hx : Drawn front (x.take r).1 (noteAll ds (x.take r).2) :=
      h.take hr (calm x List.mem_cons_self) fun d c _ hc => hk.placeholder named hc
    have := ih hx (hr.take x) (hk.take hr x) (fun y hy => calm y (List.mem_cons_of_mem x hy))
      (by simpa using named)
    rw [feed_cons, Step.seq_apply, Claude.noteAll_append]
    exact this

/-! ## The end of the message -/

theorem noteAll_stopBlock (ds : List Draft) (r : Merging) : noteAll ds (stopBlock r).2 = ds := by
  unfold stopBlock
  cases r.openBlock <;> rfl

theorem flush_drafts : ∀ (queue : List Nat) (r : Merging) (ds : List Draft),
    ds.length = r.nextIndex → (∀ index ∈ queue, index ∈ r.calls.indices) →
    ∃ drafts, noteAll ds (flush queue r).2 = ds ++ drafts ∧
      List.Forall₂ (Full r.calls) queue drafts
  | [], _, _, _, _ => ⟨[], (List.append_nil _).symm, .nil⟩
  | index :: queue, r, ds, numbered, known => by
    obtain ⟨c, hc⟩ := Calls.exists_lookup (known index List.mem_cons_self)
    obtain ⟨d, hd, hn, ha⟩ := noteAll_callEvents numbered c
    have hl : (ds ++ [d]).length = r.nextIndex + 1 := by
      rw [List.length_append, numbered, List.length_singleton]
    obtain ⟨drafts, he, hf⟩ := flush_drafts queue
      { r with nextIndex := r.nextIndex + 1, openBlock := none } (ds ++ [d]) hl
      fun i hi => known i (List.mem_cons_of_mem index hi)
    refine ⟨d :: drafts, ?_, .cons ⟨c, hc, hn, ha⟩ hf⟩
    simp only [flush, Step.seq_apply, startCall_eq hc, stopBlock_fst, openCall,
      Claude.noteAll_append, hd, noteAll_stopBlock]
    rw [he, List.append_assoc, List.singleton_append]

/-- When the open block is stopped and every call that waits has its block, the drafts are
those of all calls. -/
theorem Drawn.settle (h : Drawn front r ds) (ht : Tidy r) :
    ∃ drafts, noteAll ds (settle r).2 = front ++ drafts ∧
      List.Forall₂ (fun index d => Whole r.calls index d ∨ Full r.calls index d) r.calls.indices
        drafts := by
  obtain ⟨closed, wholes, current, rfl, hi, hw, hc⟩ := h.drafts
  obtain ⟨drafts, he, hf⟩ := flush_drafts r.queued { r with openBlock := none, queued := [] }
    (front ++ wholes ++ current) h.numbered ht.known
  refine ⟨wholes ++ current ++ drafts, ?_, ?_⟩
  · simp only [Merging.settle, Step.seq_apply, stopBlock_fst, stopBlock_queued,
      Claude.noteAll_append, noteAll_stopBlock, he]
    simp only [List.append_assoc]
  · rw [hi]
    exact List.rel_append (List.rel_append (hw.imp fun _ _ => .inl) (hc.imp fun _ _ => .inr))
      (hf.imp fun _ _ => .inr)

end Switchboard.Relay.Merging
