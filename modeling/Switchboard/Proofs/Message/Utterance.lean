import Switchboard.Proofs.Message.Pieces

/-!
# What is said in a message

Text, reasoning and the signatures that seal it are said in deltas, each with the number
of its block (`utterances`). In a sealed stream nothing stands between a signature and the
stop of its block (`IsSealed`), so that the signature is the last delta there
(`IsSealed.last`).
-/

namespace Switchboard.Claude

/-! ## Utterances -/

/-- What an event says, and the number of the block in which it says so. -/
def Event.utterance? : Event → Option (Nat × Delta)
  | .blockDelta n (.text s) => some (n, .text s)
  | .blockDelta n (.thinking s) => some (n, .thinking s)
  | .blockDelta n (.signature s) => some (n, .signature s)
  | _ => none

/-- What events say, in order, with the numbers of the blocks. -/
def utterances (events : List Event) : List (Nat × Delta) := events.filterMap Event.utterance?

theorem utterances_append (xs ys : List Event) :
    utterances (xs ++ ys) = utterances xs ++ utterances ys :=
  List.filterMap_append

/-! ## Seals -/

/-- A signature in the block with a number. -/
def Event.IsSeal (n : Nat) (event : Event) : Prop := ∃ s, event = .blockDelta n (.signature s)

/-- Every signature is followed by the stop of its block. -/
inductive IsSealed : List Event → Prop
  | nil : IsSealed []
  | cons {event : Event} {rest : List Event} (plain : ∀ n, ¬ event.IsSeal n)
      (more : IsSealed rest) : IsSealed (event :: rest)
  | sealed {n : Nat} {s : String} {rest : List Event} (more : IsSealed rest) :
      IsSealed (.blockDelta n (.signature s) :: .blockStop n :: rest)

variable {n : Nat} {s : String} {xs ys front rest : List Event}

theorem IsSealed.append (hx : IsSealed xs) (hy : IsSealed ys) : IsSealed (xs ++ ys) := by
  induction hx with
  | nil => exact hy
  | cons plain _ ih => exact .cons plain ih
  | sealed _ ih => exact .sealed ih

/-- Where nothing is said, no signature is. -/
theorem isSealed_of_silent (h : utterances xs = []) : IsSealed xs := by
  induction xs with
  | nil => exact .nil
  | cons event xs ih =>
    obtain ⟨he, hx⟩ := List.filterMap_eq_nil_iff.mp h |> List.forall_mem_cons.mp
    refine .cons ?_ (ih (List.filterMap_eq_nil_iff.mpr hx))
    rintro n ⟨s, rfl⟩
    cases he

theorem IsSealed.head?_rest (h : IsSealed (front ++ .blockDelta n (.signature s) :: rest)) :
    rest.head? = some (.blockStop n) := by
  generalize hx : front ++ .blockDelta n (.signature s) :: rest = xs at h
  induction h generalizing front with
  | nil => simp at hx
  | @cons event xs plain _ ih =>
    cases front with
    | nil => exact absurd ⟨s, (List.cons.inj hx).1.symm⟩ (plain n)
    | cons _ front => exact ih (List.cons.inj hx).2
  | @sealed m t xs _ ih =>
    match front with
    | [] =>
      obtain ⟨he, rfl⟩ := List.cons.inj hx
      cases he
      rfl
    | [_] => cases (List.cons.inj (List.cons.inj hx).2).1
    | _ :: _ :: front => exact ih (List.cons.inj (List.cons.inj hx).2).2

/-! ## In a message -/

namespace Place

/-- Inside a block its start has been read. -/
theorem exists_blockStart_of_inside {p : Place} {form : Form}
    (h : p.read? xs = some (inside n form)) :
    p = inside n form ∨ ∃ block, block.form? = some form ∧ .blockStart n block ∈ xs := by
  induction xs generalizing p with
  | nil => exact .inl (Option.some.inj h)
  | cons event xs ih =>
    obtain ⟨q, hn, hr⟩ := Option.bind_eq_some_iff.mp h
    rcases ih hr with rfl | ⟨block, hf, hm⟩
    · cases p <;> cases event <;> simp only [next?, reduceCtorEq, Option.some.injEq] at hn
      case between.blockStart m index block =>
        split_ifs at hn with hi
        obtain ⟨_, hf, he⟩ := Option.map_eq_some_iff.mp hn
        obtain ⟨rfl, rfl⟩ := inside.inj he
        exact .inr ⟨block, hf, hi ▸ List.mem_cons_self⟩
      case inside.blockDelta m _ index delta =>
        split_ifs at hn with hi
        exact .inl (Option.some.inj hn)
      case inside.blockStop => split_ifs at hn; cases hn
    · exact .inr ⟨block, hf, List.mem_cons_of_mem event hm⟩

end Place

theorem eq_thinking_of_form? {block : Block} (h : block.form? = some .thinking) :
    block = .thinking "" none := by
  unfold Block.form? at h
  split at h <;> first | rfl | cases h

/-- A signature that can be read is the last delta of a block of reasoning, which stops
with it. -/
theorem IsSealed.last {q : Place} (h : IsSealed (front ++ .blockDelta n (.signature s) :: rest))
    (readable : Place.before.read? (front ++ .blockDelta n (.signature s) :: rest) = some q) :
    .blockStart n (.thinking "" none) ∈ front ∧ rest.head? = some (.blockStop n) ∧
      ∀ delta, .blockDelta n delta ∉ rest := by
  have hs := h.head?_rest
  obtain ⟨rest, rfl⟩ := List.head?_eq_some_iff.mp hs
  rw [Place.read?_append] at readable
  obtain ⟨p, hp, hr⟩ := Option.bind_eq_some_iff.mp readable
  obtain ⟨p', hd, hr⟩ := Option.bind_eq_some_iff.mp hr
  obtain ⟨p'', hb, hr⟩ := Option.bind_eq_some_iff.mp hr
  refine ⟨?_, hs, fun delta => ?_⟩
  · cases p <;> simp only [Place.next?, reduceCtorEq] at hd
    case inside m form =>
      split_ifs at hd with hi
      obtain ⟨rfl, hf⟩ := hi
      obtain rfl := Option.some.inj hf
      obtain hp | ⟨block, hf, hm⟩ := Place.exists_blockStart_of_inside hp
      · cases hp
      · exact eq_thinking_of_form? hf ▸ hm
  · exact List.not_mem_cons_of_ne_of_not_mem nofun
      (((Place.beyond_of_blockStop hb).read hr).2 delta)

end Switchboard.Claude
