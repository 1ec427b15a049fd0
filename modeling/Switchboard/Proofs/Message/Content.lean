import Switchboard.Proofs.Message.Pieces
import Switchboard.Proofs.Message.Reply

/-!
# What a whole message says

What a message says can be read off its events, whatever blocks it is made of : its text
is what the deltas of text bring, and its tool uses are those that were started, each with
the input that its block was given (`IsMessage.exists_content`).
-/

namespace Switchboard.Claude

/-! ## Text and tool uses of a content -/

/-- The text that a block is. -/
def Block.text? : Block → Option String
  | .text s _ _ => some s
  | _ => none

/-- Whether a block is a tool use. -/
def Block.isToolUse : Block → Bool
  | .toolUse _ _ _ => true
  | _ => false

/-- The texts of a content, one after another. -/
def textOf (content : List Block) : String := String.join (content.filterMap Block.text?)

/-- The tool uses of a content. -/
def toolUses (content : List Block) : List Block := content.filter Block.isToolUse

theorem textOf_append (xs ys : List Block) : textOf (xs ++ ys) = textOf xs ++ textOf ys := by
  rw [textOf, List.filterMap_append, String.join_append, textOf, textOf]

theorem toolUses_append (xs ys : List Block) : toolUses (xs ++ ys) = toolUses xs ++ toolUses ys :=
  List.filter_append xs ys

/-! ## Text and tool uses among events -/

/-- The text that an event brings. -/
def Event.spoken? : Event → Option String
  | .blockDelta _ (.text s) => some s
  | _ => none

/-- The text that events bring, piece after piece. -/
def spoken (events : List Event) : String := String.join (events.filterMap Event.spoken?)

/-- The number of a tool use that an event starts, its id and its name. -/
def Event.use? : Event → Option (Nat × String × String)
  | .blockStart n (.toolUse id name _) => some (n, id, name)
  | _ => none

/-- The tool uses that are started, in order. -/
def uses (events : List Event) : List (Nat × String × String) := events.filterMap Event.use?

theorem spoken_append (xs ys : List Event) : spoken (xs ++ ys) = spoken xs ++ spoken ys := by
  rw [spoken, List.filterMap_append, String.join_append, spoken, spoken]

theorem uses_append (xs ys : List Event) : uses (xs ++ ys) = uses xs ++ uses ys :=
  List.filterMap_append

theorem callNumbers_eq (events : List Event) : callNumbers events = (uses events).map (·.1) := by
  rw [uses, List.map_filterMap]
  refine List.filterMap_congr fun event _ => ?_
  cases event with
  | blockStart n block => cases block <;> rfl
  | _ => rfl

/-! ## One block -/

variable {n : Nat} {block : Block} {form : Form} {deltas : List Delta}

/-- The input that a text of pieces amounts to. -/
def inputValue? (s : String) : Option Json :=
  if s.isEmpty then some (.object []) else Json.parseSorted? s

theorem Draft.finish?_of_toolUse {d : Draft} {id name : String}
    (h : d.block = .toolUse id name (.object [])) :
    d.finish? = (inputValue? d.json).map (.toolUse id name) := by
  simp only [Draft.finish?, h, inputValue?]
  split <;> rfl

theorem noteAll_deltas {drafts : List Draft} (h : drafts.length = n) (d : Draft)
    (deltas : List Delta) : noteAll (drafts ++ [d]) (deltas.map (.blockDelta n)) =
      drafts ++ [{ d with deltas := d.deltas ++ deltas }] := by
  induction deltas generalizing d with
  | nil => simp
  | cons delta deltas ih =>
    rw [List.map_cons, noteAll_cons, note_last h, ih]
    simp [Draft.add]

theorem noteAll_blockEvents {drafts : List Draft} (h : drafts.length = n) (block : Block)
    (deltas : List Delta) :
    noteAll drafts (blockEvents n block deltas) = drafts ++ [⟨block, deltas⟩] := by
  rw [blockEvents, noteAll_cons, noteAll_append]
  show note (noteAll (drafts ++ [⟨block, []⟩]) _) (.blockStop n) = _
  rw [noteAll_deltas h]
  rfl

theorem spoken_blockEvents (n : Nat) (block : Block) (deltas : List Delta) :
    spoken (blockEvents n block deltas) = (Draft.mk block deltas).texts := by
  have hs : [Event.blockStop n].filterMap Event.spoken? = [] := rfl
  rw [spoken, blockEvents, List.filterMap_cons_none rfl, List.filterMap_append, hs,
    List.append_nil, List.filterMap_map, Draft.texts]
  refine congrArg String.join (List.filterMap_congr fun delta _ => ?_)
  cases delta <;> rfl

theorem inputOf_blockEvents (n : Nat) (block : Block) (deltas : List Delta) :
    inputOf n (blockEvents n block deltas) = (Draft.mk block deltas).json := by
  have hs : [Event.blockStop n].filterMap (Event.pieceFor? n) = [] := rfl
  rw [inputOf, blockEvents, List.filterMap_cons_none rfl, List.filterMap_append, hs,
    List.append_nil, List.filterMap_map, Draft.json]
  refine congrArg String.join (List.filterMap_congr fun delta _ => ?_)
  cases delta <;> simp [Event.pieceFor?]

theorem uses_blockEvents (n : Nat) (block : Block) (deltas : List Delta) :
    uses (blockEvents n block deltas) = uses [.blockStart n block] := by
  have hd : uses (deltas.map (.blockDelta n) ++ [.blockStop n]) = [] := by
    refine List.filterMap_eq_nil_iff.mpr fun event he => ?_
    rcases List.mem_append.mp he with he | he
    · obtain ⟨delta, -, rfl⟩ := List.mem_map.mp he
      rfl
    · rw [List.mem_singleton.mp he]
      rfl
  rw [blockEvents, ← List.singleton_append, uses_append, hd, List.append_nil]

theorem fst_of_mem_uses {u : Nat × String × String} (h : u ∈ uses (blockEvents n block deltas)) :
    u.1 = n := by
  rw [uses_blockEvents] at h
  cases block <;> simp [uses, Event.use?] at h
  exact congrArg Prod.fst h

theorem inputOf_blockEvents_of_ne {m : Nat} (h : n ≠ m) (block : Block) (deltas : List Delta) :
    inputOf m (blockEvents n block deltas) = "" := by
  have hd : inputOf m (deltas.map (.blockDelta n) ++ [.blockStop n]) = "" := by
    refine congrArg String.join (List.filterMap_eq_nil_iff.mpr fun event he => ?_)
    rcases List.mem_append.mp he with he | he
    · obtain ⟨delta, -, rfl⟩ := List.mem_map.mp he
      exact pieceFor?_of_ne h delta
    · rw [List.mem_singleton.mp he]
      rfl
  rw [blockEvents, inputOf_cons_of_none rfl, hd]

/-- A block of another form brings no text. -/
theorem texts_of_form (fits : ∀ d ∈ deltas, d.form? = some form) (other : form ≠ .text) :
    (Draft.mk block deltas).texts = "" := by
  refine congrArg String.join (List.filterMap_eq_nil_iff.mpr fun d hd => ?_)
  cases d with
  | text s => exact absurd (Option.some.inj (fits _ hd)).symm other
  | _ => rfl

/-- What a block says in the end. -/
theorem exists_finish? (value : Nat → Json) (starts : block.form? = some form)
    (fits : ∀ d ∈ deltas, d.form? = some form)
    (reads : ∀ u ∈ uses (blockEvents n block deltas),
      inputValue? (inputOf n (blockEvents n block deltas)) = some (value u.1)) :
    ∃ b, (Draft.mk block deltas).finish? = some b ∧
      textOf [b] = spoken (blockEvents n block deltas) ∧
      toolUses [b] = (uses (blockEvents n block deltas)).map
        fun (n, id, name) => .toolUse id name (value n) := by
  rw [uses_blockEvents] at reads ⊢
  rw [spoken_blockEvents]
  rw [inputOf_blockEvents] at reads
  unfold Block.form? at starts
  split at starts
  case h_1 =>
    exact ⟨_, rfl, by simp [textOf, Block.text?], rfl⟩
  case h_2 =>
    obtain rfl := Option.some.inj starts
    exact ⟨_, rfl, (texts_of_form fits (by decide)).symm, rfl⟩
  case h_3 id name =>
    obtain rfl := Option.some.inj starts
    have hv := reads (n, id, name) List.mem_cons_self
    refine ⟨.toolUse id name (value n), ?_, (texts_of_form fits (by decide)).symm, rfl⟩
    rw [Draft.finish?_of_toolUse rfl, hv, Option.map_some]
  case h_4 => cases starts

/-! ## Whole messages -/

theorem reassemble?_of_closing {events : List Event} {content : List Block}
    {reason : Option StopReason} {usage : Usage}
    (complete : (noteAll [] events).mapM Draft.finish? = some content)
    (closed : closing? events = some (reason, usage)) :
    reassemble? events = some ⟨content, reason, usage⟩ := by
  rw [reassemble?, complete, closed]
  rfl

theorem IsBlocks.le_of_mem_uses {events : List Event} (h : IsBlocks n events) :
    ∀ u ∈ uses events, n ≤ u.1 := by
  induction h with
  | nil => exact fun _ hu => absurd hu List.not_mem_nil
  | @cons n block form deltas rest starts fits _ ih =>
    intro u hu
    rw [uses_append] at hu
    rcases List.mem_append.mp hu with hu | hu
    · exact Nat.le_of_eq (fst_of_mem_uses hu).symm
    · exact Nat.le_of_succ_le (ih u hu)

/-- Every block gets the deltas with its number, and what they all say is what the events
bring. -/
theorem IsBlocks.exists_content {events : List Event} (h : IsBlocks n events) (value : Nat → Json)
    (reads : ∀ u ∈ uses events, inputValue? (inputOf u.1 events) = some (value u.1)) :
    ∃ drafts content, (∀ ds : List Draft, ds.length = n → noteAll ds events = ds ++ drafts) ∧
      List.Forall₂ (fun d b => d.finish? = some b) drafts content ∧
      textOf content = spoken events ∧
      toolUses content = (uses events).map fun (n, id, name) => .toolUse id name (value n) := by
  induction h with
  | nil => exact ⟨[], [], fun ds _ => (List.append_nil ds).symm, .nil, rfl, rfl⟩
  | @cons n block form deltas rest starts fits more ih =>
    -- Blocks behind this one have later numbers, and this one is given nothing by them.
    have later : ∀ u ∈ uses rest,
        inputOf u.1 (blockEvents n block deltas ++ rest) = inputOf u.1 rest := by
      intro u hu
      have hn : n ≠ u.1 := Nat.ne_of_lt (more.le_of_mem_uses u hu)
      rw [inputOf_append, inputOf_blockEvents_of_ne hn, String.empty_append]
    have own : inputOf n (blockEvents n block deltas ++ rest) =
        inputOf n (blockEvents n block deltas) := by
      obtain ⟨m, hm⟩ := Place.read?_blocks more
      have hb : (Place.between (n + 1)).Beyond n := Nat.lt_succ_self n
      rw [inputOf_append, inputOf_eq_empty (hb.read hm).2, String.append_empty]
    obtain ⟨b, hb, ht, hu⟩ := exists_finish? value starts fits fun u hu => by
      have hr := reads u (by rw [uses_append]; exact List.mem_append_left _ hu)
      rw [fst_of_mem_uses hu] at hr ⊢
      rwa [own] at hr
    obtain ⟨drafts, content, hd, hf, ht', hu'⟩ := ih fun u hu => by
      rw [← later u hu]
      exact reads u (by rw [uses_append]; exact List.mem_append_right _ hu)
    refine ⟨⟨block, deltas⟩ :: drafts, b :: content, fun ds hl => ?_, .cons hb hf, ?_, ?_⟩
    · rw [noteAll_append, noteAll_blockEvents hl, hd _ (by simp [hl]), List.append_assoc,
        List.singleton_append]
    · rw [← List.singleton_append, textOf_append, spoken_append, ht, ht']
    · rw [← List.singleton_append, toolUses_append, uses_append, List.map_append, hu, hu']

/-- A message whose inputs can be read has a content, the text and the tool uses of which
are those that the events bring. -/
theorem IsMessage.exists_content {events : List Event} (h : IsMessage events) (value : Nat → Json)
    (reads : ∀ u ∈ uses events, inputValue? (inputOf u.1 events) = some (value u.1)) :
    ∃ content, (noteAll [] events).mapM Draft.finish? = some content ∧
      textOf content = spoken events ∧
      toolUses content = (uses events).map fun (n, id, name) => .toolUse id name (value n) := by
  obtain ⟨message, blocks, reason, sequence, usage, hb, rfl⟩ := h
  set events := Event.messageStart message :: (blocks ++ closingEvents reason sequence usage)
  have hu : uses events = uses blocks := (uses_append blocks _).trans (List.append_nil _)
  have hi : ∀ n, inputOf n events = inputOf n blocks := fun n =>
    (inputOf_append n blocks _).trans String.append_empty
  have hs : spoken events = spoken blocks := (spoken_append blocks _).trans String.append_empty
  have hn : noteAll [] events = noteAll [] blocks := noteAll_append [] blocks _
  obtain ⟨drafts, content, hd, hf, hc⟩ :=
    hb.exists_content value (by simpa only [hu, hi] using reads)
  refine ⟨content, ?_, by rw [hs, hu]; exact hc⟩
  rw [hn, hd [] rfl, List.nil_append]
  exact mapM_finish? hf

end Switchboard.Claude
