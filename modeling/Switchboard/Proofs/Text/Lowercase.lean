import Mathlib.Data.List.Infix
import Switchboard.Text.Blank
import Switchboard.Text.Lowercase
import Switchboard.Text.Search

/-!
# Searching in lower case

A text in front of another one adds nothing to what is found in both together, if none of its ends
can be the beginning of what is searched for (`any_contains_append`).

The lower case of a character depends on the characters around it only where it is a capital
sigma. So a piece of a text without one is found again in the lower case of the text
(`contains_lowercase_of_piece`). A space or a line break ends a word, and no character looks past
it (`IsGap`) : behind a space a text becomes what it becomes by itself (`lowercase_append`), and
of texts that are joined by line breaks, each one is found in lower case as it is by itself
(`contains_lowercase_intercalate`).
-/

namespace Switchboard.Text

theorem containsChars_iff {part cs : List Char} : containsChars part cs ↔ part <:+: cs := by
  induction cs with
  | nil => simp [containsChars]
  | cons c cs ih => simp [containsChars, List.infix_cons_iff, ih]

theorem contains_iff {s part : String} : contains s part ↔ part.toList <:+: s.toList :=
  containsChars_iff

/-! ## Behind a text -/

/-- No end of a text begins a mark or begins with one. -/
def IsClearOf (front mark : List Char) : Prop :=
  ∀ s ∈ front.tails, s ≠ [] → ¬ s <+: mark ∧ ¬ mark <+: s

instance (front mark : List Char) : Decidable (IsClearOf front mark) :=
  inferInstanceAs (Decidable (∀ s ∈ front.tails, s ≠ [] → ¬ s <+: mark ∧ ¬ mark <+: s))

/-- What is found behind a text that is clear of it does not begin in that text. -/
theorem infix_of_infix_append {mark front rest : List Char} (clear : IsClearOf front mark)
    (h : mark <:+: front ++ rest) : mark <:+: rest := by
  induction front with
  | nil => exact h
  | cons c front ih =>
    rw [List.cons_append, List.infix_cons_iff] at h
    rcases h with here | later
    · obtain ⟨notOver, notIn⟩ := clear (c :: front)
        ((List.mem_tails _ _).mpr (List.suffix_refl _)) (List.cons_ne_nil c front)
      have own : c :: front <+: c :: (front ++ rest) := List.prefix_append (c :: front) rest
      exact absurd (List.prefix_or_prefix_of_prefix here own) (not_or.mpr ⟨notIn, notOver⟩)
    · refine ih (fun s hs => clear s ?_) later
      exact (List.mem_tails _ _).mpr (((List.mem_tails _ _).mp hs).trans (List.suffix_cons c front))

/-- A text that is clear of marks hides none of them and shows none. -/
theorem any_contains_append {marks : List String} {front : String}
    (clear : ∀ mark ∈ marks, IsClearOf front.toList mark.toList) (s : String) :
    marks.any (contains (front ++ s)) = marks.any (contains s) := by
  rw [Bool.eq_iff_iff, List.any_eq_true, List.any_eq_true]
  refine exists_congr fun mark => and_congr_right fun hm => ?_
  rw [contains_iff, contains_iff, String.toList_append]
  exact ⟨infix_of_infix_append (clear mark hm), fun h => h.trans (List.suffix_append _ _).isInfix⟩

/-! ## Pieces of a text -/

theorem lowerFrom_ne_nil {cs : List Char} (h : cs ≠ []) (back : List Char) :
    lowerFrom back cs ≠ [] := by
  obtain ⟨c, cs, rfl⟩ := List.exists_cons_of_ne_nil h
  rw [lowerFrom]
  split_ifs <;> exact List.cons_ne_nil _ _

/-- Characters without a capital sigma become the same in every place. -/
theorem lowerFrom_append {cs : List Char} (plain : 'Σ' ∉ cs) (back front rest : List Char) :
    lowerFrom back (cs ++ rest) = lowerFrom front cs ++ lowerFrom (cs.reverse ++ back) rest := by
  induction cs generalizing back front with
  | nil => rfl
  | cons c cs ih =>
    obtain ⟨first, others⟩ := List.ne_and_not_mem_of_not_mem_cons plain
    rw [List.cons_append, lowerFrom, lowerFrom, if_neg first.symm, if_neg first.symm,
      ih others (c :: back) (c :: front)]
    simp

/-- The lower case of a text ends with that of its end, in its place. -/
theorem lowerFrom_suffix (back front rest : List Char) :
    lowerFrom (front.reverse ++ back) rest <:+ lowerFrom back (front ++ rest) := by
  induction front generalizing back with
  | nil => exact List.suffix_refl _
  | cons c front ih =>
    rw [List.cons_append, lowerFrom, List.reverse_cons, List.append_assoc]
    exact (ih (c :: back)).trans (List.suffix_append _ _)

/-- A piece without a capital sigma is found in lower case. -/
theorem contains_lowercase_of_piece {s piece : String} (plain : 'Σ' ∉ piece.toList)
    (stands : piece.toList <:+: s.toList) : contains (lowercase s) (lowercase piece) := by
  obtain ⟨front, rest, whole⟩ := stands
  have behind := lowerFrom_suffix [] front (piece.toList ++ rest)
  rw [lowerFrom_append plain _ [], ← List.append_assoc front, whole] at behind
  rw [contains_iff, lowercase, lowercase, String.toList_ofList, String.toList_ofList]
  exact (List.prefix_append _ _).isInfix.trans behind.isInfix

/-- At the end of a text a capital sigma becomes another letter than within a word. -/
example : contains "ΟΔΟΣΑ" "ΟΔΟΣ" ∧ contains (lowercase "ΟΔΟΣΑ") (lowercase "ΟΔΟΣ") = false := by
  decide +kernel

/-! ## Gaps between words -/

/-- A character that ends a word : it is no letter and cannot stand inside a word either. -/
structure IsGap (c : Char) : Prop where
  counts : isCaseIgnorable c = false
  noLetter : isCased c = false

theorem isGap_lineBreak : IsGap '\n' := ⟨by decide +kernel, by decide⟩

theorem isGap_space : IsGap ' ' := ⟨by decide +kernel, by decide⟩

theorem IsGap.meetsLetter_append {gap : Char} (h : IsGap gap) (xs ys : List Char) :
    meetsLetter (xs ++ gap :: ys) = meetsLetter xs := by
  rw [meetsLetter, meetsLetter, List.dropWhile_append]
  cases xs.dropWhile isCaseIgnorable with
  | nil => simp [h.counts, h.noLetter]
  | cons c cs => rfl

/-- What stands before a gap makes no difference behind it. -/
theorem IsGap.lowerFrom_append {gap : Char} (h : IsGap gap) (back front cs : List Char) :
    lowerFrom (back ++ gap :: front) cs = lowerFrom back cs := by
  induction cs generalizing back with
  | nil => rfl
  | cons c cs ih =>
    rw [lowerFrom, lowerFrom, h.meetsLetter_append, ← List.cons_append, ih]

/-- Behind a text without a capital sigma that ends in a space, a text becomes what it becomes by
itself. -/
theorem lowercase_append {front : List Char} (plain : 'Σ' ∉ front) (s : String) :
    lowercase (String.ofList (front ++ [' ']) ++ s) =
      lowercase (String.ofList (front ++ [' '])) ++ lowercase s := by
  have plain : 'Σ' ∉ front ++ [' '] := by simpa using plain
  have behind := isGap_space.lowerFrom_append [] front.reverse s.toList
  rw [lowercase, String.toList_append, String.toList_ofList, Text.lowerFrom_append plain [] [],
    List.append_nil, List.reverse_append, List.reverse_singleton, List.singleton_append]
  rw [List.nil_append] at behind
  rw [behind, String.ofList_append, lowercase, lowercase, String.toList_ofList]

/-! ## Texts between line breaks -/

/-- What stands behind a line break makes no difference before it. -/
theorem lowerFrom_break (back xs ys : List Char) :
    lowerFrom back (xs ++ '\n' :: ys) = lowerFrom back xs ++ '\n' :: lowerFrom [] ys := by
  induction xs generalizing back with
  | nil =>
    have first : lowerFrom back ('\n' :: ys) = '\n' :: lowerFrom ([] ++ '\n' :: back) ys := rfl
    rw [List.nil_append, first, isGap_lineBreak.lowerFrom_append]
    rfl
  | cons x xs ih =>
    rw [List.cons_append, lowerFrom, lowerFrom, isGap_lineBreak.meetsLetter_append, ih,
      List.append_assoc]

theorem infix_lowerFrom_intercalate {text : List Char} {texts : List (List Char)}
    (among : text ∈ texts) :
    lowerFrom [] text <:+: lowerFrom [] (List.intercalate ['\n'] texts) := by
  induction texts with
  | nil => cases among
  | cons first rest ih =>
    cases rest with
    | nil =>
      obtain rfl := List.mem_singleton.mp among
      simp
    | cons next rest =>
      rw [List.intercalate_cons_cons, List.append_assoc, List.singleton_append, lowerFrom_break]
      rcases List.mem_cons.mp among with rfl | among
      · exact (List.prefix_append _ _).isInfix
      · exact (ih among).trans ((List.suffix_cons _ _).trans (List.suffix_append _ _)).isInfix

/-- What is found in a text in lower case is found in it among others. -/
theorem contains_lowercase_intercalate {text part : String} {texts : List String}
    (among : text ∈ texts) (found : contains (lowercase text) part) :
    contains (lowercase ("\n".intercalate texts)) part := by
  rw [contains_iff, lowercase, String.toList_ofList] at found ⊢
  rw [String.toList_intercalate]
  exact found.trans (infix_lowerFrom_intercalate (List.mem_map_of_mem among))

/-! ## Blank texts -/

/-- A text that is not blank has something left in lower case without the blanks around it. -/
theorem lowercase_trim_ne_empty {s : String} (h : isBlankText s = false) :
    lowercase (trim s) ≠ "" := by
  have left : trimChars s.toList ≠ [] := by
    intro none
    obtain ⟨front, back, whole, blankFront, blankBack⟩ := exists_eq_trimChars s.toList
    rw [none, List.nil_append] at whole
    have blank : isBlankText s = true := by
      rw [isBlankText, whole, List.all_append, List.all_eq_true.mpr blankFront,
        List.all_eq_true.mpr blankBack]
      rfl
    exact absurd (h.symm.trans blank) Bool.false_ne_true
  intro none
  have empty : lowerFrom [] (trimChars s.toList) = [] := by
    simpa [lowercase, trim] using none
  exact lowerFrom_ne_nil left [] empty

end Switchboard.Text
