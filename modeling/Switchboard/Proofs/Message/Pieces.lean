import Switchboard.Proofs.Message.Grammar

/-!
# What the blocks of tool uses are given

The input of a tool use comes in pieces, each a delta with the number of its block.
`callNumbers` are the numbers of the blocks of tool uses, in the order of their starts,
and `inputOf` is what the block with a number was given, piece after piece.

In what a reader of messages accepts, a block that was stopped is given nothing more
(`inputOf_append_of_stopped`), because from then on every number is a later one
(`Place.Beyond`).
-/

namespace Switchboard.Claude

/-- The number of the block of a tool use that an event starts. -/
def Event.callNumber? : Event → Option Nat
  | .blockStart n (.toolUse _ _ _) => some n
  | _ => none

/-- The numbers of the blocks of tool uses, in the order of their starts. -/
def callNumbers (events : List Event) : List Nat := events.filterMap Event.callNumber?

/-- The piece of input that an event has for the block with a number. -/
def Event.pieceFor? (n : Nat) : Event → Option String
  | .blockDelta m (.inputJson s) => if m = n then some s else none
  | _ => none

/-- The input that the block with a number was given. -/
def inputOf (n : Nat) (events : List Event) : String :=
  String.join (events.filterMap (Event.pieceFor? n))

theorem callNumbers_append (xs ys : List Event) :
    callNumbers (xs ++ ys) = callNumbers xs ++ callNumbers ys :=
  List.filterMap_append

theorem inputOf_append (n : Nat) (xs ys : List Event) :
    inputOf n (xs ++ ys) = inputOf n xs ++ inputOf n ys := by
  rw [inputOf, List.filterMap_append, String.join_append, inputOf, inputOf]

theorem inputOf_cons_of_none {n : Nat} {event : Event} (h : event.pieceFor? n = none)
    (events : List Event) : inputOf n (event :: events) = inputOf n events := by
  rw [inputOf, List.filterMap_cons, h, inputOf]

/-- A block is not given what has the number of another one. -/
theorem pieceFor?_of_ne {n m : Nat} (h : m ≠ n) (delta : Delta) :
    (Event.blockDelta m delta).pieceFor? n = none := by
  cases delta with
  | inputJson s => exact if_neg h
  | text s | thinking s | signature s | other value => rfl

/-- A block that gets no delta is given nothing. -/
theorem inputOf_eq_empty {n : Nat} {events : List Event}
    (h : ∀ delta, .blockDelta n delta ∉ events) : inputOf n events = "" := by
  refine congrArg String.join (List.filterMap_eq_nil_iff.mpr fun event he => ?_)
  cases event with
  | blockDelta m delta =>
    refine pieceFor?_of_ne ?_ delta
    rintro rfl
    exact h delta he
  | _ => rfl

/-! ## Blocks that were stopped -/

namespace Place

variable {n : Nat} {p q : Place} {event : Event} {events : List Event}

/-- The block with the number lies behind the place. -/
def Beyond (n : Nat) : Place → Prop
  | before => False
  | between m | inside m _ => n < m
  | closing | done => True

theorem beyond_of_blockStop (h : p.next? (.blockStop n) = some q) : q.Beyond n := by
  cases p <;> simp only [next?, reduceCtorEq] at h
  case inside m form =>
    split_ifs at h with hm
    obtain rfl := Option.some.inj h
    exact hm ▸ Nat.lt_succ_self m

/-- What lies behind stays behind, and gets no delta. -/
theorem Beyond.next (hp : p.Beyond n) (h : p.next? event = some q) :
    q.Beyond n ∧ ∀ delta, event ≠ .blockDelta n delta := by
  cases p <;> cases event <;> simp only [next?, reduceCtorEq] at h
  case before.messageStart => exact absurd hp id
  case between.blockStart m index block =>
    split_ifs at h with hi
    obtain ⟨form, -, rfl⟩ := Option.map_eq_some_iff.mp h
    exact ⟨hp, nofun⟩
  case between.messageDelta => exact Option.some.inj h ▸ ⟨trivial, nofun⟩
  case inside.blockDelta m form index delta =>
    split_ifs at h with hi
    obtain rfl := Option.some.inj h
    refine ⟨hp, ?_⟩
    rintro _ ⟨⟩
    exact Nat.ne_of_lt hp hi.1
  case inside.blockStop m form index =>
    split_ifs at h with hi
    obtain rfl := Option.some.inj h
    exact ⟨Nat.lt_succ_of_lt hp, nofun⟩
  case closing.messageStop => exact Option.some.inj h ▸ ⟨trivial, nofun⟩

theorem Beyond.read (hp : p.Beyond n) (h : p.read? events = some q) :
    q.Beyond n ∧ ∀ delta, .blockDelta n delta ∉ events := by
  induction events generalizing p with
  | nil => exact ⟨Option.some.inj h ▸ hp, fun _ => List.not_mem_nil⟩
  | cons event events ih =>
    obtain ⟨r, hn, hr⟩ := Option.bind_eq_some_iff.mp h
    obtain ⟨hb, he⟩ := hp.next hn
    obtain ⟨hq, hm⟩ := ih hb hr
    exact ⟨hq, fun delta => List.not_mem_cons_of_ne_of_not_mem (he delta).symm (hm delta)⟩

/-- A block that was stopped lies behind the place that has been come to. -/
theorem beyond_of_read? (stopped : .blockStop n ∈ events) (h : p.read? events = some q) :
    q.Beyond n := by
  induction events generalizing p with
  | nil => cases stopped
  | cons event events ih =>
    obtain ⟨r, hn, hr⟩ := Option.bind_eq_some_iff.mp h
    rcases List.mem_cons.mp stopped with rfl | hs
    · exact ((beyond_of_blockStop hn).read hr).1
    · exact ih hs hr

end Place

/-- A block that was stopped is given nothing more. -/
theorem inputOf_append_of_stopped {n : Nat} {p q : Place} {xs ys : List Event}
    (stopped : .blockStop n ∈ xs) (h : p.read? (xs ++ ys) = some q) :
    inputOf n (xs ++ ys) = inputOf n xs := by
  rw [Place.read?_append] at h
  obtain ⟨r, hx, hy⟩ := Option.bind_eq_some_iff.mp h
  have hn := ((Place.beyond_of_read? stopped hx).read hy).2
  rw [inputOf_append, inputOf_eq_empty hn, String.append_empty]

end Switchboard.Claude
