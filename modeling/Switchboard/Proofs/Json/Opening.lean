import Mathlib.Data.List.Basic
import Switchboard.Json.Printer
import Switchboard.Proofs.Json.ReadBack
import Switchboard.Proofs.Json.Whole

/-!
# Texts of objects

A text that reads as a JSON value reads as an object if and only if its first character behind
blanks is a brace that opens (`isObject_of_parse?`).

The first token of a text opens an object exactly if the text begins with a brace
(`opensObject_of_tokens?`). What the first token opens is the outermost value : from then on the
machine knows whether it will end with an object (`Machine.root?`), a token does not change it
(`Machine.root?_step`), and the machine is done with a value of that kind. The text of a value
begins with a brace if the value is an object (`opensObject_render`), so what is read back is an
object if what was written is one, whatever becomes of its numbers.
-/

namespace Switchboard

/-! ## The text of a number -/

namespace Numeral

open Json.LexState (inNumeral)

/-- Whether all characters can stand in a numeral. -/
def IsNumeral (cs : List Char) : Prop := ∀ c ∈ cs, inNumeral c = true

instance (cs : List Char) : Decidable (IsNumeral cs) := List.decidableBAll _ cs

@[simp] theorem isNumeral_append {xs ys : List Char} :
    IsNumeral (xs ++ ys) ↔ IsNumeral xs ∧ IsNumeral ys := List.forall_mem_append

@[simp] theorem isNumeral_cons {c : Char} {cs : List Char} :
    IsNumeral (c :: cs) ↔ inNumeral c = true ∧ IsNumeral cs := List.forall_mem_cons

@[simp] theorem isNumeral_nil : IsNumeral [] := nofun

theorem isNumeral_writeNat (n : Nat) : IsNumeral (writeNat n) := fun c hc => by
  simp [inNumeral, isDigit_of_mem_writeNat hc]

theorem isNumeral_zeros (n : Nat) : IsNumeral (List.replicate n '0') := fun c hc => by
  obtain rfl := List.eq_of_mem_replicate hc
  rfl

theorem isNumeral_writeDecimal (range : PositionalRange) (d : Decimal) :
    IsNumeral (writeDecimal range d) := by
  have digits := isNumeral_writeNat d.digits
  have front (n : Nat) : IsNumeral ((writeNat d.digits).take n) :=
    fun c hc => digits c (List.mem_of_mem_take hc)
  have back (n : Nat) : IsNumeral ((writeNat d.digits).drop n) :=
    fun c hc => digits c (List.mem_of_mem_drop hc)
  have marks : IsNumeral ['-', '+', '.', 'e', '0'] := by decide
  simp only [isNumeral_cons] at marks
  unfold writeDecimal
  dsimp only
  split_ifs
  · simp [digits, isNumeral_zeros, marks]
  · simp [front, back, marks]
  · simp [digits, isNumeral_zeros, marks]
  all_goals
    split <;> rename_i h <;> rw [h] at digits <;> simp_all [isNumeral_writeNat]

theorem isNumeral_write (n : JsonNumber) : IsNumeral (write n) := by
  cases n with
  | whole i =>
    cases i with
    | ofNat n => exact isNumeral_writeNat n
    | negSucc n => exact isNumeral_cons.mpr ⟨rfl, isNumeral_writeNat (n + 1)⟩
  | binary x =>
    have sign : IsNumeral (if x.negative then ['-'] else []) := by split <;> decide
    rw [write, writeBinary]
    split
    · exact isNumeral_append.mpr ⟨sign, by decide⟩
    · exact isNumeral_append.mpr ⟨sign, isNumeral_writeDecimal _ _⟩

end Numeral

namespace Json

/-! ## The first token -/

/-- Whether some characters begin with a brace behind blanks. -/
def opensBrace (cs : List Char) : Bool := (cs.dropWhile LexState.isBlank).head? = some '{'

/-- Whether a text begins with a brace behind blanks. -/
def opensObject (text : String) : Bool := opensBrace text.toList

namespace LexState

theorem opensBrace_cons_of_isBlank {c : Char} (h : isBlank c = true) (cs : List Char) :
    opensBrace (c :: cs) = opensBrace cs := by
  simp [opensBrace, h]

theorem opensBrace_cons_of_not_isBlank {c : Char} (h : isBlank c = false) (cs : List Char) :
    opensBrace (c :: cs) = (c = '{' : Bool) := by
  simp [opensBrace, h]

/-- A character is a blank, a token, or the first one of a token that is no object. -/
theorem start_cases {c : Char} {s : LexState} {tokens : List Token}
    (h : start c = some (s, tokens)) :
    (isBlank c = true ∧ s = between ∧ tokens = []) ∨
    (isBlank c = false ∧ ∃ t, tokens = [t] ∧ t.opensObject = (c = '{' : Bool)) ∨
    (isBlank c = false ∧ s ≠ between ∧ tokens = [] ∧ c ≠ '{') := by
  unfold start at h
  split at h
  case isTrue blank =>
    cases h
    exact .inl ⟨blank, rfl, rfl⟩
  case isFalse visible =>
    rw [Bool.not_eq_true] at visible
    right
    split at h
    case h_8 =>
      split_ifs at h <;> cases h
      · exact .inr ⟨visible, nofun, rfl, by assumption⟩
      · exact .inr ⟨visible, nofun, rfl, by assumption⟩
    case h_7 =>
      cases h
      exact .inr ⟨visible, nofun, rfl, by decide⟩
    all_goals
      cases h
      exact .inl ⟨visible, _, rfl, rfl⟩

/-- The first token of a text opens an object exactly if the text begins with a brace. -/
theorem opensObject_of_run {cs : List Char} {t : LexState} {tokens last rest : List Token}
    {first : Token} (h : between.run cs = some (t, tokens)) (hl : t.scalar? = some last)
    (begins : tokens ++ last = first :: rest) : first.opensObject = opensBrace cs := by
  -- Blanks are passed over. Any other character is the first token or the beginning of it.
  induction cs generalizing tokens with
  | nil =>
    obtain ⟨rfl, rfl⟩ := Prod.mk.inj (Option.some.inj h)
    obtain rfl := Option.some.inj hl
    cases begins
  | cons c cs ih =>
    obtain ⟨⟨s, done⟩, hs, h⟩ := Option.bind_eq_some_iff.mp h
    obtain ⟨⟨t', more⟩, hm, h⟩ := Option.bind_eq_some_iff.mp h
    obtain ⟨rfl, rfl⟩ := Prod.mk.inj (Option.some.inj h)
    rcases start_cases hs with ⟨blank, rfl, rfl⟩ | ⟨visible, token, rfl, brace⟩ |
      ⟨visible, begun, rfl, other⟩
    · rw [ih hm begins, opensBrace_cons_of_isBlank blank]
    · obtain ⟨rfl, -⟩ := List.cons.inj begins
      rw [brace, opensBrace_cons_of_not_isBlank visible]
    · obtain ⟨_, _, complete, noObject⟩ := exists_cons_of_open begun hm hl
      obtain ⟨rfl, -⟩ := List.cons.inj (complete.symm.trans begins)
      rw [noObject, opensBrace_cons_of_not_isBlank visible, decide_eq_false other]

end LexState

theorem opensObject_of_tokens? {cs : List Char} {first : Token} {rest : List Token}
    (h : tokens? cs = some (first :: rest)) : first.opensObject = opensBrace cs := by
  obtain ⟨p, last, hp, hl, begins⟩ := tokens?_iff.mp h
  exact LexState.opensObject_of_run hp hl begins.symm

/-! ## The outermost value -/

/-- Whether it is an object that is open. -/
def Frame.isObject : Frame → Bool
  | .array .. => false
  | .object .. => true

/-- Whether the value that is read is an object, as far as it can be told. -/
def Expect.isObject? : Expect → Option Bool
  | .value => none
  | .first | .moreItems _ => some false
  | .firstKey | .key _ | .colon _ _ | .moreMembers _ => some true
  | .done v => some v.isObject

namespace Machine

/-- Whether the innermost value inside some frames is in an object or, if there are none, is one
itself. -/
def rootOf (frames : List Frame) (inside : Option Bool) : Option Bool :=
  (frames.getLast?.map Frame.isObject).or inside

/-- Whether the outermost value is an object, as far as it can be told. -/
def root? (m : Machine) : Option Bool :=
  match m.expect with
  | .done v => some v.isObject
  | _ => rootOf m.frames m.expect.isObject?

variable {r : Reader} {m m' : Machine} {frames : List Frame} {t : Token} {kind : Bool}

theorem rootOf_cons (f : Frame) (frames : List Frame) (inside : Option Bool) :
    rootOf (f :: frames) inside = rootOf frames (some f.isObject) := by
  cases h : frames.getLast? <;> simp [rootOf, List.getLast?_cons, h]

/-- A value that is finished leaves the kind of the outermost one. -/
theorem root?_give (frames : List Frame) (v : Json) :
    (give frames v).root? = rootOf frames (some v.isObject) := by
  cases frames with
  | nil => rfl
  | cons f outer =>
    rw [rootOf_cons]
    cases f <;> rfl

theorem root?_beginValue (h : beginValue r frames t = some m') :
    m'.root? = rootOf frames (some t.opensObject) := by
  cases t <;> simp only [beginValue] at h
  case scalar v =>
    obtain rfl := Option.some.inj h
    exact root?_give frames v
  case numeral p =>
    split at h
    · obtain rfl := Option.some.inj h
      exact root?_give frames .null
    · obtain ⟨n, -, rfl⟩ := Option.map_eq_some_iff.mp h
      exact root?_give frames (.number n)
  case flawedText =>
    split at h <;> cases h
    exact root?_give frames .null
  case openArray | openObject =>
    split at h <;> cases h
    rfl
  all_goals cases h

/-- Once it is known whether the outermost value is an object, a token does not change it. -/
theorem root?_step (known : m.root? = some kind) (h : m.step r t = some m') :
    m'.root? = some kind := by
  -- A token opens or closes the innermost frame. The outermost one is touched only where there is
  -- no other, and then it is known from what is expected.
  obtain ⟨frames, expect⟩ := m
  unfold step at h
  cases expect with
  | value =>
    have framed : frames.getLast?.map Frame.isObject = some kind := by
      simpa [root?, rootOf, Expect.isObject?] using known
    rw [root?_beginValue h, rootOf, framed, Option.some_or]
  | first =>
    cases t
    case closeArray =>
      obtain rfl := Option.some.inj h
      exact (root?_give frames (.array [])).trans known
    all_goals exact ((root?_beginValue h).trans (rootOf_cons _ _ _)).trans known
  | firstKey =>
    cases t
    case closeObject =>
      obtain rfl := Option.some.inj h
      exact (root?_give frames (.object [])).trans known
    all_goals
      obtain ⟨k, -, rfl⟩ := Option.map_eq_some_iff.mp h
      exact known
  | key back =>
    obtain ⟨k, -, rfl⟩ := Option.map_eq_some_iff.mp h
    exact known
  | colon back k =>
    cases t <;> cases h
    exact (rootOf_cons _ _ _).trans known
  | moreItems back =>
    cases t <;> cases h
    · exact (root?_give frames _).trans known
    · exact (rootOf_cons _ _ _).trans known
  | moreMembers back =>
    cases t <;> cases h
    · exact (root?_give frames _).trans known
    · exact known
  | done v => cases h

theorem root?_run (known : m.root? = some kind) {ts : List Token}
    (h : m.run r ts = some m') : m'.root? = some kind := by
  induction ts generalizing m with
  | nil =>
    obtain rfl := Option.some.inj h
    exact known
  | cons t ts ih =>
    obtain ⟨next, hs, h⟩ := Option.bind_eq_some_iff.mp h
    exact ih (root?_step known hs) h

end Machine

/-! ## Texts -/

/-- A text that is read is read as an object if and only if it begins with a brace. -/
theorem isObject_of_parse? {text : String} {v : Json} (h : parse? text = some v) :
    v.isObject = opensObject text := by
  obtain ⟨tokens, m, ht, hm, hv⟩ := read?_iff.mp h
  cases tokens with
  | nil =>
    obtain rfl := Option.some.inj hm
    cases hv
  | cons first rest =>
    obtain ⟨begun, hs, hm⟩ := Option.bind_eq_some_iff.mp hm
    have ends := Machine.root?_run (Machine.root?_beginValue hs) hm
    rw [Machine.root?, Machine.expect_of_result? hv] at ends
    rw [Option.some.inj ends, opensObject, opensObject_of_tokens? ht]

theorem opensBrace_eq_false {cs : List Char} (h : '{' ∉ cs) : opensBrace cs = false := by
  refine decide_eq_false fun brace => h ?_
  obtain ⟨rest, begins⟩ := List.head?_eq_some_iff.mp brace
  exact (List.dropWhile_suffix _).subset (begins ▸ List.mem_cons_self)

/-- The text of a value begins with a brace if and only if the value is an object. -/
theorem opensObject_render (v : Json) : opensObject v.render = v.isObject := by
  rw [opensObject, render, String.toList_ofList]
  cases v with
  | null => rfl
  | bool b => cases b <;> rfl
  | number n =>
    exact opensBrace_eq_false fun brace => absurd (Numeral.isNumeral_write n _ brace) (by decide)
  | string s => rfl
  | array items => rfl
  | object members => rfl

end Json

end Switchboard
