import Mathlib.Tactic.Common
import Switchboard.Claude.Event

/-!
# The grammar of a streamed message

A message is its start, blocks numbered from zero without gaps, the closing delta and
the stop. A block is its start, deltas of its own form and its stop, so that no two
blocks are open at once (`IsMessage`).

`Place` is the place a reader of the events has come to, and `Place.read?` refuses the
first event that cannot come next. The events that lead from the beginning to the end are
the messages (`read?_before_eq_some_done_iff`), and what a reader accepts so far is the
front of some message (`exists_isMessage_of_read?`).
-/

namespace Switchboard.Claude

/-! ## Messages -/

/-- The forms of block that are streamed piece by piece. -/
inductive Form where
  | text
  | thinking
  | toolUse
  deriving DecidableEq, Repr

/-- The form of a block that starts with nothing in it. -/
def Block.form? : Block → Option Form
  | .text "" none none => some .text
  | .thinking "" none => some .thinking
  | .toolUse _ _ (.object []) => some .toolUse
  | _ => none

/-- The form of block that a delta continues. -/
def Delta.form? : Delta → Option Form
  | .text _ => some .text
  | .thinking _ | .signature _ => some .thinking
  | .inputJson _ => some .toolUse
  | .other _ => none

/-- The events of a whole block. -/
def blockEvents (index : Nat) (block : Block) (deltas : List Delta) : List Event :=
  .blockStart index block :: (deltas.map (.blockDelta index) ++ [.blockStop index])

/-- Whole blocks, numbered from the given number. -/
inductive IsBlocks : Nat → List Event → Prop
  | nil (index : Nat) : IsBlocks index []
  | cons {index : Nat} {block : Block} {form : Form} {deltas : List Delta} {rest : List Event}
      (starts : block.form? = some form) (fits : ∀ d ∈ deltas, d.form? = some form)
      (more : IsBlocks (index + 1) rest) : IsBlocks index (blockEvents index block deltas ++ rest)

/-- The end of a message. -/
def closingEvents (reason : Option StopReason) (sequence : Option String) (usage : Usage) :
    List Event :=
  [.messageDelta reason sequence usage, .messageStop]

/-- The events of a whole message. -/
def IsMessage (events : List Event) : Prop :=
  ∃ message blocks reason sequence usage, IsBlocks 0 blocks ∧
    events = .messageStart message :: (blocks ++ closingEvents reason sequence usage)

/-! ## Reading a message -/

/-- How much of a message has been read. -/
inductive Place where
  | before
  | between (next : Nat)
  | inside (index : Nat) (form : Form)
  | closing
  | done
  deriving DecidableEq, Repr

namespace Place

/-- The place after an event; nothing if the event cannot come here. -/
def next? : Place → Event → Option Place
  | before, .messageStart _ => some (between 0)
  | between n, .blockStart index block => if index = n then block.form?.map (inside n) else none
  | between _, .messageDelta _ _ _ => some closing
  | inside n form, .blockDelta index delta =>
    if index = n ∧ delta.form? = some form then some (inside n form) else none
  | inside n _, .blockStop index => if index = n then some (between (n + 1)) else none
  | closing, .messageStop => some done
  | _, _ => none

/-- The place behind events, if they can be read from a place on. -/
def read? : Place → List Event → Option Place
  | p, [] => some p
  | p, event :: rest => (p.next? event).bind fun p => read? p rest

theorem read?_append (p : Place) (xs ys : List Event) :
    p.read? (xs ++ ys) = (p.read? xs).bind fun q => q.read? ys := by
  induction xs generalizing p with
  | nil => rfl
  | cons x xs ih =>
    cases h : p.next? x with
    | none => simp [read?, h]
    | some q => simpa [read?, h] using ih q

theorem read?_append_of_eq {p q r : Place} {xs ys : List Event} (hx : p.read? xs = some q)
    (hy : q.read? ys = some r) : p.read? (xs ++ ys) = some r := by
  rw [read?_append, hx, Option.bind_some, hy]

-- The equations of `next?` take long to make; made here, no lemma below waits for another.
attribute [local simp] next?

/-- Nothing comes after the stop of a message. -/
theorem read?_done {events : List Event} {q : Place} (h : done.read? events = some q) :
    events = [] ∧ q = done := by
  cases events with
  | nil => exact ⟨rfl, (Option.some.inj h).symm⟩
  | cons event rest => cases event <;> simp [read?, next?] at h

theorem next?_messageStop {p q : Place} (h : p.next? .messageStop = some q) : q = done := by
  cases p <;> simp_all [next?]

/-- The stop has been read exactly at the end. -/
theorem mem_messageStop_iff {p q : Place} {events : List Event} (hp : p ≠ done)
    (h : p.read? events = some q) : .messageStop ∈ events ↔ q = done := by
  induction events generalizing p with
  | nil =>
    obtain rfl := Option.some.inj h
    simp [hp]
  | cons event rest ih =>
    obtain ⟨next, hn, hr⟩ := Option.bind_eq_some_iff.mp h
    by_cases hd : next = done
    · subst hd
      obtain ⟨rfl, rfl⟩ := read?_done hr
      have he : event = .messageStop := by
        cases p <;> cases event <;> simp [next?] at hn ⊢
      simp [he]
    · have he : event ≠ .messageStop := by
        rintro rfl
        exact hd (next?_messageStop hn)
      rw [List.mem_cons, ih hd hr]
      exact or_iff_right (Ne.symm he)

/-- Behind the closing delta comes the stop, and nothing else. -/
theorem read?_closing {events : List Event} {q : Place} (h : closing.read? events = some q) :
    q = closing ∨ q = done := by
  cases events with
  | nil => exact .inl (Option.some.inj h).symm
  | cons event rest =>
    obtain ⟨next, hn, hr⟩ := Option.bind_eq_some_iff.mp h
    cases event <;> simp only [next?, reduceCtorEq] at hn
    obtain rfl := Option.some.inj hn
    exact .inr (read?_done hr).2

/-- Before the end of a message there is no closing delta. -/
theorem not_mem_messageDelta {p q : Place} {events : List Event} (h : p.read? events = some q)
    (hc : q ≠ closing) (hd : q ≠ done) (reason : Option StopReason) (sequence : Option String)
    (usage : Usage) : .messageDelta reason sequence usage ∉ events := by
  induction events generalizing p with
  | nil => exact List.not_mem_nil
  | cons event rest ih =>
    obtain ⟨next, hn, hr⟩ := Option.bind_eq_some_iff.mp h
    refine List.not_mem_cons_of_ne_of_not_mem ?_ (ih hr)
    rintro rfl
    have hnext : next = closing := by
      cases p <;> simp only [next?, reduceCtorEq, Option.some.injEq] at hn
      exact hn.symm
    subst hnext
    exact (read?_closing hr).elim hc hd

/-! ## What is left to read -/

/-- The events that finish a message from a place. -/
def Rest : Place → List Event → Prop
  | before, events => IsMessage events
  | between n, events => ∃ blocks reason sequence usage, IsBlocks n blocks ∧
      events = blocks ++ closingEvents reason sequence usage
  | inside n form, events => ∃ (deltas : List Delta) (blocks : List Event),
      ∃ reason sequence usage, (∀ d ∈ deltas, d.form? = some form) ∧ IsBlocks (n + 1) blocks ∧
      events = deltas.map (.blockDelta n) ++ .blockStop n ::
        (blocks ++ closingEvents reason sequence usage)
  | closing, events => events = [.messageStop]
  | done, events => events = []

theorem read?_deltas {n : Nat} {form : Form} {deltas : List Delta}
    (fits : ∀ d ∈ deltas, d.form? = some form) :
    (inside n form).read? (deltas.map (.blockDelta n)) = some (inside n form) := by
  induction deltas with
  | nil => rfl
  | cons d deltas ih =>
    simp only [List.mem_cons, forall_eq_or_imp] at fits
    simp only [List.map_cons, read?, next?, fits.1, and_self, if_true, Option.bind_some]
    exact ih fits.2

theorem read?_blockEvents {n : Nat} {block : Block} {form : Form} {deltas : List Delta}
    (starts : block.form? = some form) (fits : ∀ d ∈ deltas, d.form? = some form) :
    (between n).read? (blockEvents n block deltas) = some (between (n + 1)) := by
  have hs : (between n).read? [.blockStart n block] = some (inside n form) := by
    simp [read?, next?, starts]
  have he : (inside n form).read? [.blockStop n] = some (between (n + 1)) := by
    simp [read?, next?]
  exact read?_append_of_eq hs (read?_append_of_eq (read?_deltas fits) he)

theorem read?_blocks {n : Nat} {blocks : List Event} (h : IsBlocks n blocks) :
    ∃ m, (between n).read? blocks = some (between m) := by
  induction h with
  | nil n => exact ⟨n, rfl⟩
  | cons starts fits _ ih =>
    obtain ⟨m, hm⟩ := ih
    exact ⟨m, read?_append_of_eq (read?_blockEvents starts fits) hm⟩

theorem read?_blocks_closing {n : Nat} {blocks : List Event} (h : IsBlocks n blocks)
    (reason : Option StopReason) (sequence : Option String) (usage : Usage) :
    (between n).read? (blocks ++ closingEvents reason sequence usage) = some done := by
  obtain ⟨m, hm⟩ := read?_blocks h
  have hc : (between m).read? (closingEvents reason sequence usage) = some done := rfl
  exact read?_append_of_eq hm hc

theorem read?_of_rest {p : Place} {events : List Event} (h : p.Rest events) :
    p.read? events = some done := by
  match p with
  | before =>
    obtain ⟨message, blocks, reason, sequence, usage, hb, rfl⟩ := h
    exact read?_blocks_closing hb reason sequence usage
  | between n =>
    obtain ⟨blocks, reason, sequence, usage, hb, rfl⟩ := h
    exact read?_blocks_closing hb reason sequence usage
  | inside n form =>
    obtain ⟨deltas, blocks, reason, sequence, usage, fits, hb, rfl⟩ := h
    refine read?_append_of_eq (read?_deltas fits) ?_
    simpa [read?, next?] using read?_blocks_closing hb reason sequence usage
  | closing =>
    obtain rfl := h
    rfl
  | done =>
    obtain rfl := h
    rfl

/-- An event that can come next stands in front of what is left after it. -/
theorem rest_cons {p q : Place} {event : Event} {events : List Event}
    (hn : p.next? event = some q) (h : q.Rest events) : p.Rest (event :: events) := by
  cases p <;> cases event <;> simp only [next?, reduceCtorEq] at hn
  case before.messageStart message =>
    obtain rfl := Option.some.inj hn
    obtain ⟨blocks, reason, sequence, usage, hb, rfl⟩ := h
    exact ⟨message, blocks, reason, sequence, usage, hb, rfl⟩
  case between.blockStart n index block =>
    split_ifs at hn with hi
    obtain ⟨form, starts, rfl⟩ := Option.map_eq_some_iff.mp hn
    obtain ⟨deltas, blocks, reason, sequence, usage, fits, hb, rfl⟩ := h
    subst hi
    refine ⟨_, reason, sequence, usage, .cons starts fits hb, ?_⟩
    simp [blockEvents]
  case between.messageDelta n reason sequence usage =>
    obtain rfl := Option.some.inj hn
    obtain rfl := h
    exact ⟨[], reason, sequence, usage, .nil n, rfl⟩
  case inside.blockDelta n form index delta =>
    split_ifs at hn with hi
    obtain rfl := Option.some.inj hn
    obtain ⟨deltas, blocks, reason, sequence, usage, fits, hb, rfl⟩ := h
    obtain ⟨rfl, hd⟩ := hi
    exact ⟨delta :: deltas, blocks, reason, sequence, usage, by simpa [hd] using fits, hb, rfl⟩
  case inside.blockStop n form index =>
    split_ifs at hn with hi
    obtain rfl := Option.some.inj hn
    obtain ⟨blocks, reason, sequence, usage, hb, rfl⟩ := h
    subst hi
    exact ⟨[], blocks, reason, sequence, usage, by simp, hb, rfl⟩
  case closing.messageStop =>
    obtain rfl := Option.some.inj hn
    obtain rfl := h
    rfl

theorem rest_of_read? {p : Place} {events : List Event} (h : p.read? events = some done) :
    p.Rest events := by
  induction events generalizing p with
  | nil =>
    obtain rfl := Option.some.inj h
    rfl
  | cons event events ih =>
    obtain ⟨q, hn, hr⟩ := Option.bind_eq_some_iff.mp h
    exact rest_cons hn (ih hr)

/-- A reader gets from the beginning to the end exactly over a message. -/
theorem read?_before_eq_some_done_iff {events : List Event} :
    before.read? events = some done ↔ IsMessage events :=
  ⟨rest_of_read? (p := before), read?_of_rest (p := before)⟩

/-- From every place there is a way to the end. -/
theorem exists_rest : ∀ p : Place, ∃ events, p.Rest events
  | before => ⟨_, .empty "" "" (.of 0 0), [], none, none, .of 0 0, .nil 0, rfl⟩
  | between n => ⟨_, [], none, none, .of 0 0, .nil n, rfl⟩
  | inside n _ => ⟨_, [], [], none, none, .of 0 0, by simp, .nil (n + 1), rfl⟩
  | closing => ⟨_, rfl⟩
  | done => ⟨_, rfl⟩

/-- What can be read so far is the front of a message. -/
theorem exists_isMessage_of_read? {p : Place} {events : List Event}
    (h : before.read? events = some p) : ∃ word, IsMessage word ∧ events <+: word := by
  obtain ⟨rest, hr⟩ := p.exists_rest
  exact ⟨events ++ rest,
    read?_before_eq_some_done_iff.mp (read?_append_of_eq h (read?_of_rest hr)),
    List.prefix_append events rest⟩

end Place

end Switchboard.Claude
