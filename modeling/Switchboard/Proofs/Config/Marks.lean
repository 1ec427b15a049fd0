import Mathlib.Data.List.TakeWhile
import Switchboard.Config.Environment

/-!
# Marks of variables

A variable is marked in a text by two braces, `env.` with its name behind it, and two braces that
close it ; blanks may stand around the name (`IsMark`). What stands at the front of a text is
decided by `variableAt?`, which finds a mark with its whole length (`variableAt?_mark`), and nothing
where none begins (`variableAt?_eq_none_iff`).

A mark opens with two braces and holds none of them further on, so that no two marks overlap. To
look for marks from the left then misses none : a variable is among the pieces of a text exactly
if a mark of it stands anywhere in the text (`mem_piecesFrom_iff`). The variable that is reported
as not set has only set ones before it (`isFirstUnset_of_unset?`), and if all are set, the text is
copied with a value in place of each mark, which leaves one text that it can be (`replaced_iff`).
-/

namespace Switchboard.Environment

variable {vars : Variables} {name : String} {mark cs rest : List Char}

/-- A name begins with a letter or an underscore and goes on with letters, digits and
underscores. -/
def IsName (name : String) : Prop :=
  ∃ c cs, name.toList = c :: cs ∧ isNameStart c = true ∧ ∀ d ∈ cs, isNameChar d = true

/-- The mark of a variable. -/
def IsMark (name : String) (mark : List Char) : Prop :=
  IsName name ∧ ∃ front back, (∀ c ∈ front, Text.isBlank c = true) ∧
    (∀ c ∈ back, Text.isBlank c = true) ∧ mark =
      '{' :: '{' :: (front ++ ('e' :: 'n' :: 'v' :: '.' :: (name.toList ++ (back ++ ['}', '}']))))

/-- No mark begins at the front of the text. -/
def Unmarked (cs : List Char) : Prop := ∀ name mark, IsMark name mark → ¬mark <+: cs

/-- A mark of the variable stands somewhere in the text. -/
def Mentions (cs : List Char) (name : String) : Prop := ∃ mark, IsMark name mark ∧ mark <:+: cs

/-! ## The front of a text -/

theorem isNameChar_of_isNameStart {c : Char} (h : isNameStart c = true) : isNameChar c = true := by
  rw [isNameStart, Bool.or_eq_true] at h
  rw [isNameChar, Char.isAlphanum, Bool.or_eq_true, Bool.or_eq_true]
  exact h.imp_left .inl

theorem IsName.isNameChar_of_mem (h : IsName name) : ∀ c ∈ name.toList, isNameChar c = true := by
  obtain ⟨c, cs, spelt, start, others⟩ := h
  rw [spelt]
  exact List.forall_mem_cons.mpr ⟨isNameChar_of_isNameStart start, others⟩

theorem toNat_of_isNameChar {c : Char} (h : isNameChar c = true) :
    0x30 ≤ c.toNat ∧ c.toNat ≤ 0x7A := by
  change (((decide (c.val ≥ 'A'.val ∧ c.val ≤ 'Z'.val) ||
    (decide (c.val ≥ 'a'.val) && decide (c.val ≤ 'z'.val))) ||
    (decide (c.val ≥ '0'.val) && decide (c.val ≤ '9'.val))) || decide (c = '_')) = true at h
  simp only [Bool.or_eq_true, Bool.and_eq_true, decide_eq_true_eq, UInt32.le_iff_toNat_le,
    ge_iff_le] at h
  rcases h with h | rfl
  · change ((65 ≤ c.toNat ∧ c.toNat ≤ 90) ∨ (97 ≤ c.toNat ∧ c.toNat ≤ 122)) ∨
      (48 ≤ c.toNat ∧ c.toNat ≤ 57) at h
    omega
  · decide

/-- Blanks end a name. -/
theorem isNameChar_of_isBlank {c : Char} (h : Text.isBlank c = true) : isNameChar c = false := by
  refine Bool.eq_false_iff.mpr fun inName => ?_
  have range := toNat_of_isNameChar inName
  simp only [Text.isBlank, Bool.or_eq_true, Bool.and_eq_true, decide_eq_true_eq, beq_iff_eq] at h
  omega

/-- Behind a name there are blanks and a brace. -/
theorem takeWhile_isNameChar_append (named : IsName name) {back : List Char}
    (blank : ∀ c ∈ back, Text.isBlank c = true) :
    (name.toList ++ (back ++ '}' :: rest)).takeWhile isNameChar = name.toList := by
  have stops : (back ++ '}' :: rest).takeWhile isNameChar = [] := by
    cases back with
    | nil => rfl
    | cons c back =>
      rw [List.cons_append, List.takeWhile_cons, isNameChar_of_isBlank (blank c List.mem_cons_self)]
      rfl
  rw [List.takeWhile_append_of_pos named.isNameChar_of_mem, stops, List.append_nil]

theorem variableAt?_mark (h : IsMark name mark) (rest : List Char) :
    variableAt? (mark ++ rest) = some (name, mark.length) := by
  obtain ⟨named, front, back, blankFront, blankBack, rfl⟩ := h
  obtain ⟨c, cs, spelt, start, -⟩ := id named
  have opened (cs : List Char) : (front ++ 'e' :: cs).dropWhile Text.isBlank = 'e' :: cs :=
    List.dropWhile_append_of_pos blankFront
  have closed (cs : List Char) : (back ++ '}' :: cs).dropWhile Text.isBlank = '}' :: cs :=
    List.dropWhile_append_of_pos blankBack
  simp only [List.cons_append, List.append_assoc, variableAt?, opened, List.nil_append,
    takeWhile_isNameChar_append named blankBack, List.drop_left, closed, String.ofList_toList]
  rw [spelt]
  simp only [List.head?_cons, start, if_true, Option.some.injEq, Prod.mk.injEq, true_and,
    List.length_cons, List.length_append, List.length_nil]
  omega

theorem exists_blanks {cs rest : List Char} (h : cs.dropWhile Text.isBlank = rest) :
    ∃ front, (∀ c ∈ front, Text.isBlank c = true) ∧ cs = front ++ rest :=
  ⟨cs.takeWhile Text.isBlank, Text.all_isBlank_takeWhile cs,
    by rw [← h, List.takeWhile_append_dropWhile]⟩

theorem exists_mark_of_variableAt? {length : Nat} (h : variableAt? cs = some (name, length)) :
    ∃ mark rest, cs = mark ++ rest ∧ IsMark name mark ∧ length = mark.length := by
  unfold variableAt? at h
  split at h
  case h_2 => cases h
  case h_1 opened =>
    split at h
    case h_2 => cases h
    case h_1 inside found =>
      dsimp only at h
      obtain ⟨letters, taken⟩ : ∃ letters, inside.takeWhile isNameChar = letters := ⟨_, rfl⟩
      have named : ∀ c ∈ letters, isNameChar c = true := fun c hc =>
        List.mem_takeWhile_imp (taken ▸ hc)
      obtain ⟨behind, rfl⟩ : letters <+: inside := taken ▸ List.takeWhile_prefix _
      rw [taken, List.drop_left] at h
      split at h
      case h_2 => cases h
      case h_1 c first =>
        split_ifs at h with start
        split at h
        case h_2 => cases h
        case h_1 after closed =>
          obtain ⟨rfl, rfl⟩ := Prod.mk.inj (Option.some.inj h)
          obtain ⟨front, blankFront, rfl⟩ := exists_blanks found
          obtain ⟨back, blankBack, rfl⟩ := exists_blanks closed
          obtain ⟨others, rfl⟩ := List.head?_eq_some_iff.mp first
          refine ⟨_, after, ?_, ⟨⟨c, others, String.toList_ofList, start, fun d hd =>
            named d (List.mem_cons_of_mem c hd)⟩, front, back, blankFront, blankBack, rfl⟩, ?_⟩
          · simp
          · simp only [List.length_cons, List.length_append, List.length_nil, String.toList_ofList]
            omega

theorem variableAt?_eq_none_iff : variableAt? cs = none ↔ Unmarked cs := by
  constructor
  · rintro h name mark marked ⟨rest, rfl⟩
    rw [variableAt?_mark marked rest] at h
    cases h
  · refine fun unmarked => Option.eq_none_iff_forall_ne_some.mpr fun found h => ?_
    obtain ⟨mark, rest, rfl, marked, -⟩ := exists_mark_of_variableAt? h
    exact unmarked _ mark marked ⟨rest, rfl⟩

/-! ## The pieces of a text -/

theorem piecesFrom_eq_drop (skip : Nat) (cs : List Char) :
    piecesFrom skip cs = piecesFrom 0 (cs.drop skip) := by
  induction skip generalizing cs with
  | zero => rfl
  | succ skip ih =>
    cases cs with
    | nil => rfl
    | cons c cs => exact ih cs

theorem IsMark.exists_cons (h : IsMark name mark) : ∃ tail, mark = '{' :: tail := by
  obtain ⟨-, front, back, -, -, rfl⟩ := h
  exact ⟨_, rfl⟩

theorem piecesFrom_mark (h : IsMark name mark) (rest : List Char) :
    piecesFrom 0 (mark ++ rest) = .variable name :: piecesFrom 0 rest := by
  have found := variableAt?_mark h rest
  obtain ⟨tail, rfl⟩ := h.exists_cons
  rw [List.cons_append] at found ⊢
  simp only [piecesFrom, found]
  rw [List.length_cons, Nat.add_sub_cancel, piecesFrom_eq_drop, List.drop_left]

theorem piecesFrom_char {c : Char} (h : Unmarked (c :: cs)) :
    piecesFrom 0 (c :: cs) = .char c :: piecesFrom 0 cs := by
  simp only [piecesFrom, variableAt?_eq_none_iff.mpr h]

/-- Every text is empty, or begins with a mark, or with a character at which no mark begins. -/
theorem marks_induction {P : List Char → Prop} (nil : P [])
    (mark : ∀ name mark rest, IsMark name mark → P rest → P (mark ++ rest))
    (char : ∀ c cs, Unmarked (c :: cs) → P cs → P (c :: cs)) (cs : List Char) : P cs := by
  induction h : cs.length using Nat.strong_induction_on generalizing cs with
  | _ length ih =>
    subst h
    cases cs with
    | nil => exact nil
    | cons c cs =>
      by_cases unmarked : Unmarked (c :: cs)
      · exact char c cs unmarked (ih _ (Nat.lt_succ_self _) cs rfl)
      · simp only [Unmarked, not_forall, not_not] at unmarked
        obtain ⟨name, m, marked, rest, whole⟩ := unmarked
        rw [← whole]
        refine mark name m rest marked (ih _ ?_ rest rfl)
        obtain ⟨tail, rfl⟩ := marked.exists_cons
        rw [← whole, List.length_append, List.length_cons]
        omega

/-! ## Marks do not overlap -/

/-- A mark opens with two braces, and holds no other opening brace. -/
theorem IsMark.exists_inner (h : IsMark name mark) :
    ∃ inner, mark = '{' :: '{' :: inner ∧ '{' ∉ inner ∧ inner ≠ [] := by
  obtain ⟨named, front, back, blankFront, blankBack, rfl⟩ := h
  have notBlank {cs : List Char} (blank : ∀ c ∈ cs, Text.isBlank c = true) : '{' ∉ cs :=
    fun hc => absurd (blank _ hc) (by decide)
  have notNamed : '{' ∉ name.toList := fun hc => absurd (named.isNameChar_of_mem _ hc) (by decide)
  refine ⟨_, rfl, ?_, by simp⟩
  simp [notBlank blankFront, notBlank blankBack, notNamed]

theorem unmarked_of_ne {c : Char} (h : c ≠ '{') : Unmarked (c :: cs) := by
  intro name mark marked begins
  obtain ⟨tail, rfl⟩ := marked.exists_cons
  exact h (List.cons_prefix_cons.mp begins).1.symm

/-- Behind the first brace of a mark no other begins before its end. -/
theorem IsMark.unmarked {tail : List Char} (h : IsMark name ('{' :: tail)) {c : Char}
    (inside : c :: cs <:+ tail) (rest : List Char) : Unmarked (c :: cs ++ rest) := by
  obtain ⟨inner, opens, closed, nonempty⟩ := h.exists_inner
  obtain rfl := (List.cons.inj opens).2
  rcases List.suffix_cons_iff.mp inside with same | further
  · obtain ⟨rfl, rfl⟩ := List.cons.inj same
    obtain ⟨d, inner, rfl⟩ := List.exists_cons_of_ne_nil nonempty
    intro other mark marked begins
    obtain ⟨_, rfl, -⟩ := marked.exists_inner
    have second := (List.cons_prefix_cons.mp (List.cons_prefix_cons.mp begins).2).1
    exact closed (second ▸ List.mem_cons_self)
  · refine unmarked_of_ne fun brace => closed (further.subset ?_)
    rw [brace]
    exact List.mem_cons_self

theorem mentions_cons {c : Char} (h : Unmarked (c :: cs)) :
    Mentions (c :: cs) name ↔ Mentions cs name := by
  refine exists_congr fun mark => and_congr_right fun marked => ?_
  rw [List.infix_cons_iff, or_iff_right (h name mark marked)]

theorem mentions_mark_append (h : IsMark name mark) (rest : List Char) (other : String) :
    Mentions (mark ++ rest) other ↔ other = name ∨ Mentions rest other := by
  constructor
  · rintro ⟨mark', marked', within⟩
    obtain ⟨tail, rfl⟩ := h.exists_cons
    rw [List.cons_append, List.infix_cons_iff] at within
    rcases within with ⟨behind, begins⟩ | within
    · -- What stands at the front of a text is one mark only.
      have found := variableAt?_mark h rest
      rw [List.cons_append, ← begins, variableAt?_mark marked' behind] at found
      exact .inl (Prod.mk.inj (Option.some.inj found)).1
    · have later : ∀ cs, cs <:+ tail → Mentions (cs ++ rest) other → Mentions rest other := by
        intro cs
        induction cs with
        | nil => exact fun _ found => found
        | cons c cs ih =>
          intro inside found
          have found := (mentions_cons (h.unmarked inside rest)).mp found
          exact ih ((List.suffix_cons c cs).trans inside) found
      exact .inr (later tail List.suffix_rfl ⟨mark', marked', within⟩)
  · rintro (rfl | ⟨mark', marked', within⟩)
    · exact ⟨mark, h, (List.prefix_append mark rest).isInfix⟩
    · exact ⟨mark', marked', within.trans (List.suffix_append mark rest).isInfix⟩

theorem not_mentions_nil : ¬Mentions [] name := by
  rintro ⟨mark, marked, within⟩
  obtain ⟨tail, rfl⟩ := marked.exists_cons
  exact absurd (List.infix_nil.mp within) (List.cons_ne_nil _ _)

/-- The pieces of a text miss no mark in it. -/
theorem mem_piecesFrom_iff : .variable name ∈ piecesFrom 0 cs ↔ Mentions cs name := by
  induction cs using marks_induction with
  | nil => simp [piecesFrom, not_mentions_nil]
  | mark other mark rest marked ih =>
    rw [piecesFrom_mark marked, List.mem_cons, ih, mentions_mark_append marked,
      Piece.variable.injEq]
  | char c cs unmarked ih =>
    rw [piecesFrom_char unmarked, List.mem_cons, ih, mentions_cons unmarked]
    exact or_iff_right nofun

/-! ## Variables that are not set -/

theorem unset?_eq_none_iff : unset? vars (piecesFrom 0 cs) = none ↔
    ∀ name, Mentions cs name → (vars.lookup name).isSome := by
  rw [unset?, List.findSome?_eq_none_iff]
  constructor
  · intro h name mentioned
    have here := h _ (mem_piecesFrom_iff.mpr mentioned)
    by_contra lost
    simp [lost] at here
  · intro h piece member
    match piece, member with
    | .char _, _ => rfl
    | .variable name, member => exact if_pos (h name (mem_piecesFrom_iff.mp member))

/-- A piece that is a variable is a mark in the text, behind the text of the pieces before it. -/
theorem exists_mark_of_piecesFrom_eq {before after : List Piece}
    (h : piecesFrom 0 cs = before ++ .variable name :: after) :
    ∃ front mark back, cs = front ++ (mark ++ back) ∧ IsMark name mark ∧
      piecesFrom 0 front = before := by
  induction cs using marks_induction generalizing before with
  | nil => simp [piecesFrom] at h
  | mark other mark rest marked ih =>
    rw [piecesFrom_mark marked] at h
    cases before with
    | nil =>
      obtain rfl := Piece.variable.inj (List.cons.inj h).1
      exact ⟨[], mark, rest, rfl, marked, rfl⟩
    | cons piece before =>
      obtain ⟨rfl, others⟩ := List.cons.inj h
      obtain ⟨front, mark', back, rfl, marked', rfl⟩ := ih others
      exact ⟨mark ++ front, mark', back, by simp, marked', piecesFrom_mark marked front⟩
  | char c cs unmarked ih =>
    rw [piecesFrom_char unmarked] at h
    cases before with
    | nil => cases (List.cons.inj h).1
    | cons piece before =>
      obtain ⟨rfl, others⟩ := List.cons.inj h
      obtain ⟨front, mark', back, rfl, marked', rfl⟩ := ih others
      refine ⟨c :: front, mark', back, rfl, marked', piecesFrom_char fun other m m' begins => ?_⟩
      exact unmarked other m m' (begins.trans (List.prefix_append (c :: front) _))

/-- A mark of the variable stands in the text, it is not set, and every variable with a mark
before that one is. -/
def IsFirstUnset (vars : Variables) (cs : List Char) (name : String) : Prop :=
  vars.lookup name = none ∧ ∃ front mark back, cs = front ++ (mark ++ back) ∧ IsMark name mark ∧
    ∀ other, Mentions front other → (vars.lookup other).isSome

theorem isFirstUnset_of_unset? (h : unset? vars (piecesFrom 0 cs) = some name) :
    IsFirstUnset vars cs name := by
  obtain ⟨before, piece, after, whole, unset, set⟩ := List.findSome?_eq_some_iff.mp h
  match piece, unset, whole with
  | .variable other, unset, whole =>
    dsimp only at unset
    split_ifs at unset with lost
    obtain rfl := Option.some.inj unset
    obtain ⟨front, mark, back, rfl, marked, rfl⟩ := exists_mark_of_piecesFrom_eq whole
    refine ⟨Option.not_isSome_iff_eq_none.mp lost, front, mark, back, rfl, marked, ?_⟩
    exact unset?_eq_none_iff.mp (List.findSome?_eq_none_iff.mpr set)

/-! ## Values in place of marks -/

/-- The second text is the first with the value of its variable in place of each mark, where
marks are found from the left. A value is not looked at. -/
inductive Replaced (vars : Variables) : List Char → List Char → Prop
  | nil : Replaced vars [] []
  | mark {name value mark rest rest'} (marked : IsMark name mark)
    (set : vars.lookup name = some value) (behind : Replaced vars rest rest') :
    Replaced vars (mark ++ rest) (value.toList ++ rest')
  | char {c cs cs'} (unmarked : Unmarked (c :: cs)) (behind : Replaced vars cs cs') :
    Replaced vars (c :: cs) (c :: cs')

theorem replaced_substitute (set : ∀ name, Mentions cs name → (vars.lookup name).isSome) :
    Replaced vars cs (substitute vars (piecesFrom 0 cs)).toList := by
  rw [substitute, String.toList_ofList]
  induction cs using marks_induction with
  | nil => exact .nil
  | mark name mark rest marked ih =>
    obtain ⟨value, found⟩ := Option.isSome_iff_exists.mp
      (set name ((mentions_mark_append marked rest name).mpr (.inl rfl)))
    rw [piecesFrom_mark marked, List.flatMap_cons]
    simp only [found, Option.getD_some]
    exact .mark marked found (ih fun other mentioned =>
      set other ((mentions_mark_append marked rest other).mpr (.inr mentioned)))
  | char c cs unmarked ih =>
    rw [piecesFrom_char unmarked, List.flatMap_cons]
    exact .char unmarked (ih fun other mentioned =>
      set other ((mentions_cons unmarked).mpr mentioned))

/-- What is replaced is determined by the text. -/
theorem Replaced.eq_substitute {out : List Char} (h : Replaced vars cs out) :
    out = (substitute vars (piecesFrom 0 cs)).toList := by
  rw [substitute, String.toList_ofList]
  induction h with
  | nil => rfl
  | mark marked set _ ih =>
    rw [piecesFrom_mark marked, List.flatMap_cons, ← ih]
    simp only [set, Option.getD_some]
  | char unmarked _ ih =>
    rw [piecesFrom_char unmarked, List.flatMap_cons, ← ih]
    rfl

/-- A text whose variables are all set is replaced by just one text. -/
theorem replaced_iff (set : ∀ name, Mentions cs name → (vars.lookup name).isSome)
    {out : List Char} :
    Replaced vars cs out ↔ out = (substitute vars (piecesFrom 0 cs)).toList := by
  refine ⟨Replaced.eq_substitute, ?_⟩
  rintro rfl
  exact replaced_substitute set

/-- A brace too many is a character like others, and a value may look like a mark. -/
example :
    substitute [("A", "\x7b\x7benv.B\x7d\x7d")] (pieces "\x7b\x7b\x7b env.A \x7d\x7d\x7d") =
      "\x7b\x7b\x7benv.B\x7d\x7d\x7d" := by
  decide +kernel

end Switchboard.Environment
