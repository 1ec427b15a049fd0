import Switchboard.Proofs.Text.Lines

/-!
# The paragraphs of a text

A line is blank if all in it is white space, and the lines between blank ones are a paragraph.
Texts with an empty line between them are the paragraphs of what they make up together, if and
only if no line of theirs is blank (`paragraphs_intercalate_iff`) : a text with such a line falls
apart, or loses what it begins or ends with.

Where texts are put together on one line, the lines in question are those that have nothing else
on them. They are all lines but the first behind a mark (`isSolid_append`), and all but the first
and the last between two marks (`forall_mem_tail_lines`).
-/

namespace Switchboard.Text

/-! ## Lines -/

/-- The lines of a text, between line feeds. -/
def lines (cs : List Char) : List (List Char) := splitChars '\n' cs

/-- Nothing but white space. -/
def isBlankLine (line : List Char) : Bool := line.all isBlank

/-- No line of the text is blank. -/
def IsSolid (cs : List Char) : Prop := ∀ line ∈ lines cs, isBlankLine line = false

instance (cs : List Char) : Decidable (IsSolid cs) :=
  inferInstanceAs (Decidable (∀ _ ∈ _, _))

theorem lines_eq_splitOn (cs : List Char) : lines cs = cs.splitOn '\n' := by
  induction cs with
  | nil => rfl
  | cons c cs ih =>
    rw [lines] at ih
    obtain ⟨first, rest, h⟩ := List.exists_cons_of_ne_nil (splitChars_ne_nil '\n' cs)
    rw [lines, splitChars, List.splitOn_cons_eq_if_modifyHead, ← ih, h]
    simp only [beq_iff_eq, List.modifyHead_cons]

theorem exists_lines (cs : List Char) : ∃ first rest, lines cs = first :: rest :=
  List.exists_cons_of_ne_nil (splitChars_ne_nil '\n' cs)

theorem lines_of_notMem {cs : List Char} (h : '\n' ∉ cs) : lines cs = [cs] :=
  splitChars_of_not_mem h

theorem lines_feed (cs : List Char) : lines ('\n' :: cs) = [] :: lines cs :=
  splitChars_append [] cs

theorem lines_char {c : Char} (h : c ≠ '\n') (cs : List Char) :
    lines (c :: cs) = (lines cs).modifyHead (c :: ·) := by
  rw [lines_eq_splitOn, lines_eq_splitOn, List.splitOn_cons_eq_if_modifyHead,
    if_neg (by simpa using h)]

/-- The last line of a text goes on with the first line of the next one. -/
theorem lines_append {xs ys last first : List Char} {front back : List (List Char)}
    (hx : lines xs = front ++ [last]) (hy : lines ys = first :: back) :
    lines (xs ++ ys) = front ++ (last ++ first) :: back := by
  induction xs generalizing front last with
  | nil =>
    obtain ⟨rfl, rfl⟩ : front = [] ∧ last = [] := by
      simpa using (List.append_eq_singleton_iff.mp hx.symm)
    exact hy
  | cons c xs ih =>
    by_cases hc : c = '\n'
    · subst hc
      rw [lines_feed] at hx
      cases front with
      | nil =>
        obtain ⟨line, lines, h⟩ := exists_lines xs
        simp [h] at hx
      | cons line front =>
        obtain ⟨rfl, later⟩ := List.cons.inj hx
        rw [List.cons_append, lines_feed, ih later]
        rfl
    · obtain ⟨line, lines, h⟩ := exists_lines xs
      rw [lines_char hc, h, List.modifyHead_cons] at hx
      cases front with
      | nil =>
        obtain ⟨rfl, rfl⟩ := List.cons.inj hx
        rw [List.cons_append, lines_char hc, ih (show lines xs = [] ++ [line] from h)]
        rfl
      | cons start front =>
        obtain ⟨rfl, rfl⟩ := List.cons.inj hx
        rw [List.cons_append, lines_char hc, ih (show lines xs = line :: front ++ [last] from h)]
        rfl

theorem lines_append_of_notMem {mark ys first : List Char} {back : List (List Char)}
    (h : '\n' ∉ mark) (hy : lines ys = first :: back) :
    lines (mark ++ ys) = (mark ++ first) :: back := by
  have hx : lines mark = [] ++ [mark] := lines_of_notMem h
  exact lines_append hx hy

/-! ## Paragraphs -/

/-- The lines between blank ones, as texts. -/
def paragraphChars (cs : List Char) : List (List Char) :=
  (((lines cs).splitOnP isBlankLine).filter (!·.isEmpty)).map (['\n'].intercalate ·)

/-- The paragraphs of a text. -/
def paragraphs (s : String) : List String := (paragraphChars s.toList).map String.ofList

theorem mem_of_mem_splitOnP {α : Type} {p : α → Bool} {xs part : List α}
    (h : part ∈ xs.splitOnP p) : ∀ x ∈ part, x ∈ xs ∧ p x = false := by
  induction xs generalizing part with
  | nil =>
    obtain rfl := List.mem_singleton.mp h
    exact fun x hx => absurd hx List.not_mem_nil
  | cons y ys ih =>
    have later : ∀ {part}, part ∈ ys.splitOnP p → ∀ x ∈ part, x ∈ y :: ys ∧ p x = false :=
      fun hp x hx => ⟨List.mem_cons_of_mem y (ih hp x hx).1, (ih hp x hx).2⟩
    rw [List.splitOnP_cons_eq_if_modifyHead] at h
    split_ifs at h with hy
    · rcases List.mem_cons.mp h with rfl | h
      · exact fun x hx => absurd hx List.not_mem_nil
      · exact later h
    · obtain ⟨first, parts, hp⟩ := List.exists_cons_of_ne_nil (List.splitOnP_ne_nil p ys)
      rw [hp, List.modifyHead_cons] at h
      rcases List.mem_cons.mp h with rfl | h
      · intro x hx
        rcases List.mem_cons.mp hx with rfl | hx
        · exact ⟨List.mem_cons_self, eq_false_of_ne_true hy⟩
        · exact later (hp ▸ List.mem_cons_self) x hx
      · exact later (hp ▸ List.mem_cons_of_mem first h)

theorem intercalate_lines (cs : List Char) : ['\n'].intercalate (lines cs) = cs := by
  rw [lines_eq_splitOn, List.intercalate_splitOn]

/-- No line of a paragraph is blank, whatever the text. -/
theorem isSolid_of_mem_paragraphChars {cs part : List Char} (h : part ∈ paragraphChars cs) :
    IsSolid part := by
  obtain ⟨run, hrun, rfl⟩ := List.mem_map.mp h
  obtain ⟨hrun, nonempty⟩ := List.mem_filter.mp hrun
  have noFeed : ∀ line ∈ run, '\n' ∉ line := by
    intro line hl feed
    have mem := (mem_of_mem_splitOnP hrun line hl).1
    rw [lines_eq_splitOn, List.splitOn_eq_splitOnP] at mem
    simpa using (mem_of_mem_splitOnP mem '\n' feed).2
  have same : lines (['\n'].intercalate run) = run := by
    rw [lines_eq_splitOn]
    exact List.splitOn_intercalate '\n' noFeed (by simpa using nonempty)
  intro line hl
  rw [same] at hl
  exact (mem_of_mem_splitOnP hrun line hl).2

theorem paragraphChars_of_isSolid {cs : List Char} (h : IsSolid cs) : paragraphChars cs = [cs] := by
  obtain ⟨first, rest, hl⟩ := exists_lines cs
  rw [paragraphChars, List.splitOnP_eq_singleton h, List.filter_cons_of_pos (by simp [hl]),
    List.filter_nil, List.map_singleton, intercalate_lines]

/-- A text without a blank line is a paragraph, if an empty line follows. -/
theorem paragraphChars_append {cs : List Char} (h : IsSolid cs) (rest : List Char) :
    paragraphChars (cs ++ '\n' :: '\n' :: rest) = cs :: paragraphChars rest := by
  obtain ⟨first, others, hl⟩ := exists_lines cs
  have split : lines (cs ++ '\n' :: '\n' :: rest) = lines cs ++ [] :: lines rest :=
    (splitChars_append cs _).trans (congrArg _ (lines_feed rest))
  rw [paragraphChars, split, List.splitOnP_append_cons_of_forall_mem h [] rfl,
    List.filter_cons_of_pos (by simp [hl]), List.map_cons, intercalate_lines, paragraphChars]

/-- Texts with an empty line between them are read as paragraphs, one for each, if and only if none
of them has a blank line. -/
theorem paragraphChars_intercalate_iff (texts : List (List Char)) :
    paragraphChars (['\n', '\n'].intercalate texts) = texts ↔ ∀ text ∈ texts, IsSolid text := by
  constructor
  · intro h text ht
    exact isSolid_of_mem_paragraphChars (h.symm ▸ ht)
  · intro solid
    induction texts with
    | nil => rfl
    | cons text texts ih =>
      have others := ih fun t ht => solid t (List.mem_cons_of_mem text ht)
      have first := solid text List.mem_cons_self
      cases texts with
      | nil => rw [List.intercalate_singleton, paragraphChars_of_isSolid first]
      | cons next texts =>
        rw [List.intercalate_cons_cons, List.append_assoc, List.cons_append, List.cons_append,
          List.nil_append, paragraphChars_append first, others]

theorem paragraphs_intercalate_iff (texts : List String) :
    paragraphs ("\n\n".intercalate texts) = texts ↔ ∀ text ∈ texts, IsSolid text.toList := by
  have chars : ("\n\n".intercalate texts).toList =
      ['\n', '\n'].intercalate (texts.map String.toList) := String.toList_intercalate
  have back : (texts.map String.toList).map String.ofList = texts := by
    rw [List.map_map]
    exact (List.map_congr_left fun s _ => String.ofList_toList).trans (List.map_id texts)
  rw [← List.forall_mem_map (f := String.toList) (P := IsSolid), ← paragraphChars_intercalate_iff,
    ← chars, paragraphs]
  constructor
  · intro h
    exact List.map_injective_iff.mpr (fun _ _ => String.ofList_inj.mp) (h.trans back.symm)
  · intro h
    rw [h, back]

/-! ## Texts on one line -/

/-- Not all of it is white space. -/
def HasInk (cs : List Char) : Prop := ∃ c ∈ cs, isBlank c = false

theorem isBlankLine_of_ink {front mark back : List Char} (h : HasInk mark) :
    isBlankLine (front ++ (mark ++ back)) = false := by
  obtain ⟨c, hc, ink⟩ := h
  rw [isBlankLine, List.all_eq_false]
  exact ⟨c, List.mem_append_right _ (List.mem_append_left _ hc), by simp [ink]⟩

section Mark

variable {mark : List Char} (line : '\n' ∉ mark) (ink : HasInk mark)

include line ink

/-- Behind a mark, all lines but the first one may be blank. -/
theorem isSolid_append (cs : List Char) :
    IsSolid (mark ++ cs) ↔ ∀ l ∈ (lines cs).tail, isBlankLine l = false := by
  obtain ⟨first, rest, h⟩ := exists_lines cs
  have whole : isBlankLine ([] ++ (mark ++ first)) = false := isBlankLine_of_ink ink
  rw [IsSolid, lines_append_of_notMem line h, h, List.forall_mem_cons, List.tail_cons]
  exact and_iff_right whole

/-- Between two marks, all lines but the first and the last one may be blank. -/
theorem forall_mem_tail_lines (xs ys : List Char) :
    (∀ l ∈ (lines (xs ++ (mark ++ ys))).tail, isBlankLine l = false) ↔
      (∀ l ∈ (lines xs).tail.dropLast, isBlankLine l = false) ∧
        ∀ l ∈ (lines ys).tail, isBlankLine l = false := by
  obtain ⟨first, rest, hy⟩ := exists_lines ys
  obtain ⟨front, last, hx⟩ :=
    (List.eq_nil_or_concat' (lines xs)).resolve_left (splitChars_ne_nil '\n' xs)
  have whole : isBlankLine (last ++ (mark ++ first)) = false := isBlankLine_of_ink ink
  rw [lines_append hx (lines_append_of_notMem line hy), hx, hy]
  cases front with
  | nil => simp
  | cons start front =>
    rw [List.cons_append, List.cons_append, List.tail_cons, List.tail_cons, List.dropLast_concat,
      List.tail_cons, List.forall_mem_append, List.forall_mem_cons, and_iff_right whole]

end Mark

end Switchboard.Text
