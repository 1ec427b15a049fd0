import Mathlib.Data.List.Basic
import Switchboard.Health.Verdict
import Switchboard.Proofs.Health.Markdown
import Switchboard.Proofs.Text.Paragraphs

/-!
# Reports, read again

A section puts marks of its own around the name, the id, the status and the note of a channel,
and escapes the marks in the name and the note. So the marks of a report are those of its
sections, and whoever splits it at them has all the sections again (`Report.read?_render`) : no
name and no note can begin a section, or end one.

The paragraphs of a report are another matter. Line ends are not escaped, and a note is whatever
a provider answers, so that a section may have blank lines. It has none if and only if it is
whole (`isSolid_reportSection_iff`), and then only, if all sections are, the paragraphs of the
report are its sections (`Report.sections_render`).
-/

namespace Switchboard.Health

open Text

/-! ## Texts between marks -/

/-- A special character that has its meaning. -/
def Glyph.isMark (g : Glyph) : Bool := !g.escaped && markdownSpecials.contains g.char

/-- The texts between the marks, without the backslashes that escape. -/
def spans (cs : List Char) : List (List Char) :=
  ((glyphs cs).splitOnP Glyph.isMark).map (·.map Glyph.char)

/-- Whatever stands behind them, the characters are read as the text, with no mark in it. -/
def Spells (cs text : List Char) : Prop :=
  ∃ gs : List Glyph, (∀ g ∈ gs, g.isMark = false) ∧ gs.map Glyph.char = text ∧
    ∀ rest, glyphs (cs ++ rest) = gs ++ glyphs rest

theorem spells_plain {cs : List Char} (h : cs.all (!markdownSpecials.contains ·) = true) :
    Spells cs cs := by
  rw [List.all_eq_true] at h
  have noBackslash : '\\' ∉ cs := fun mem => absurd (h _ mem) (by decide)
  refine ⟨cs.map (⟨·, false⟩), ?_, ?_, glyphs_append noBackslash⟩
  · rw [List.forall_mem_map]
    intro c hc
    rw [Glyph.isMark, Bool.not_false, Bool.true_and]
    exact (Bool.not_eq_true' _).mp (h c hc)
  · rw [List.map_map]
    exact List.map_id cs

theorem spells_nil : Spells [] [] := spells_plain (by decide)

theorem spells_escapeChars (cs : List Char) : Spells (escapeChars cs) cs := by
  refine ⟨cs.map Glyph.ofChar, ?_, ?_, glyphs_escapeChars_append cs⟩
  · rw [List.forall_mem_map]
    intro c _
    simp [Glyph.isMark, Glyph.ofChar]
  · rw [List.map_map]
    exact List.map_id cs

theorem spans_ne_nil (cs : List Char) : spans cs ≠ [] :=
  fun h => List.splitOnP_ne_nil _ _ (List.map_eq_nil_iff.mp h)

theorem Spells.append {xs ys s t : List Char} (hx : Spells xs s) (hy : Spells ys t) :
    Spells (xs ++ ys) (s ++ t) := by
  obtain ⟨fs, plain, rfl, read⟩ := hx
  obtain ⟨gs, plain', rfl, read'⟩ := hy
  refine ⟨fs ++ gs, List.forall_mem_append.mpr ⟨plain, plain'⟩, List.map_append, fun rest => ?_⟩
  rw [List.append_assoc, read, read', List.append_assoc]

theorem Spells.spans_eq {cs text : List Char} (h : Spells cs text) : spans cs = [text] := by
  obtain ⟨gs, plain, rfl, read⟩ := h
  have all : glyphs cs = gs := by simpa [glyphs] using read []
  rw [spans, all, List.splitOnP_eq_singleton plain, List.map_singleton]

theorem Spells.spans_mark {cs text : List Char} {mark : Char} (h : Spells cs text)
    (special : mark ∈ markdownSpecials) (noBackslash : mark ≠ '\\') (rest : List Char) :
    spans (cs ++ mark :: rest) = text :: spans rest := by
  obtain ⟨gs, plain, rfl, read⟩ := h
  have isMark : Glyph.isMark ⟨mark, false⟩ = true := by simpa [Glyph.isMark] using special
  rw [spans, read, glyphs_cons noBackslash,
    List.splitOnP_append_cons_of_forall_mem plain _ isMark, List.map_cons, spans]

/-! ## Sections -/

/-- What a report says of a channel. -/
structure Section where
  name : String
  id : Nat
  isEnabled : Bool
  note : String
  deriving DecidableEq, Repr

/-- The section that a finding should come to. -/
def Section.of (f : Channel × String) : Section := ⟨f.1.name, f.1.id, f.1.isEnabled, f.2⟩

/-- What is between a beginning and an end. -/
def between? (front back cs : List Char) : Option (List Char) :=
  (cs.dropPrefix? front).bind (·.dropSuffix? back)

/-- An id and a status, in words. -/
def readState? (cs : List Char) : Option (Nat × Bool) :=
  match splitChars ' ' cs with
  | [id, ['-'], status] => some (Nat.ofDigitChars 10 id 0, status == "enabled".toList)
  | _ => none

/-- A section, by the texts with its name, its id and status, and its note. -/
def Section.read? (title state line : List Char) : Option Section := do
  let name ← between? "Channel ".toList " - ".toList title
  let (id, isEnabled) ← readState? state
  let note ← line.dropPrefix? " : ".toList
  return ⟨String.ofList name, id, isEnabled, String.ofList note⟩

/-- The sections of a report, by the texts between its marks. The mark that a section begins with
ends the text before it. -/
def readSections? : List (List Char) → Option (List Section)
  | [] => some []
  | [[], title, state, [], line] => do return [← Section.read? title state line]
  | [] :: title :: state :: [] :: line :: later => do
    let s ← Section.read? title state (← line.dropSuffix? "\n\n".toList)
    return s :: (← readSections? later)
  | _ => none

/-- The sections of a report, by its text alone. -/
def Report.read? (s : String) : Option (List Section) :=
  match spans s.toList with
  | [] :: texts => readSections? texts
  | _ => none

theorem between?_append (front back cs : List Char) :
    between? front back (front ++ cs ++ back) = some cs := by
  rw [between?, List.append_assoc, List.dropPrefix?_append_of_beq _ (beq_self_eq_true front),
    Option.bind_some, List.dropSuffix?_eq_some_iff]
  exact ⟨back, rfl, beq_self_eq_true back⟩

/-- What a section says of the state of its channel. -/
def stateName (isEnabled : Bool) : String := if isEnabled then "enabled" else "disabled"

/-- The id and the state, with what is between them. -/
def stateChars (c : Channel) : List Char :=
  Nat.toDigits 10 c.id ++ ' ' :: '-' :: ' ' :: (stateName c.isEnabled).toList

theorem isDigit_of_mem_digits {c : Char} {n : Nat} (h : c ∈ Nat.toDigits 10 n) : c.isDigit = true :=
  Nat.isDigit_of_mem_toDigits (by decide) (by decide) h

/-- What ids and statuses are made of : digits, letters, spaces and hyphens. -/
def isPlain (c : Char) : Bool := c.isAlphanum || c == ' ' || c == '-'

theorem isPlain_of_mem_stateChars {c : Channel} {d : Char} (h : d ∈ stateChars c) :
    isPlain d = true := by
  have words : ∀ b, (' ' :: '-' :: ' ' :: (stateName b).toList).all isPlain = true := by decide
  rcases List.mem_append.mp h with h | h
  · rw [isPlain, Char.isAlphanum, isDigit_of_mem_digits h, Bool.or_true]
    rfl
  · exact List.all_eq_true.mp (words c.isEnabled) d h

theorem readState?_stateChars (c : Channel) :
    readState? (stateChars c) = some (c.id, c.isEnabled) := by
  have digits : ' ' ∉ Nat.toDigits 10 c.id := fun h => absurd (isDigit_of_mem_digits h) (by decide)
  have word : ∀ b, splitChars ' ' ('-' :: ' ' :: (stateName b).toList) =
      [['-'], (stateName b).toList] := by decide
  have status : ∀ b, ((stateName b).toList == "enabled".toList) = b := by decide
  have split : splitChars ' ' (stateChars c) =
      [Nat.toDigits 10 c.id, ['-'], (stateName c.isEnabled).toList] := by
    rw [stateChars, splitChars_append, splitChars_of_not_mem digits, word, List.singleton_append]
  rw [readState?, split]
  show some (Nat.ofDigitChars 10 (Nat.toDigits 10 c.id) 0, _) = _
  rw [Nat.ofDigitChars_ten_toDigits, status]

/-- The channel, up to its id, before anything is escaped. -/
def titleChars (c : Channel) : List Char := "Channel ".toList ++ c.name.toList ++ " - ".toList

/-- What comes behind the state, before anything is escaped. -/
def lineChars (note : String) : List Char := " : ".toList ++ note.toList

theorem spells_stateChars (c : Channel) : Spells (stateChars c) (stateChars c) := by
  have notPlain : markdownSpecials.all (!isPlain ·) = true := by decide
  refine spells_plain (List.all_eq_true.mpr fun d hd => ?_)
  rw [Bool.not_eq_true', ← Bool.not_eq_true, List.contains_iff_mem]
  intro special
  simpa [isPlain_of_mem_stateChars hd] using List.all_eq_true.mp notPlain d special

theorem spells_line (note : String) :
    Spells (" : ".toList ++ escapeChars note.toList) (lineChars note) :=
  (spells_plain (by decide)).append (spells_escapeChars _)

theorem toList_reportSection (c : Channel) (note : String) :
    (reportSection c note).toList = "**Channel ".toList ++ escapeChars c.name.toList ++
      " - #".toList ++ stateChars c ++ "** : ".toList ++ escapeChars note.toList := by
  have state : stateChars c =
      (toString c.id).toList ++ " - ".toList ++ (stateName c.isEnabled).toList := by
    rw [stateChars, List.append_assoc, ← Nat.toList_repr]
    rfl
  have escaped : ∀ s : String, (escapeMarkdown s).toList = escapeChars s.toList :=
    fun s => String.toList_ofList
  -- an equation for the definition would take the strings apart into bytes
  delta reportSection
  rw [state]
  simp only [String.toList_append, escaped, List.append_assoc, stateName]

/-- What is read of a section behind the mark that it begins with. -/
theorem exists_spans_reportSection (c : Channel) (note : String) (rest : List Char) :
    ∃ body, (reportSection c note).toList ++ rest = '*' :: body ∧
      spans body = [] :: titleChars c :: stateChars c :: [] ::
        spans (" : ".toList ++ escapeChars note.toList ++ rest) := by
  have title : Spells ("Channel ".toList ++ escapeChars c.name.toList ++ " - ".toList)
      (titleChars c) :=
    ((spells_plain (by decide)).append (spells_escapeChars _)).append (spells_plain (by decide))
  refine ⟨[] ++ '*' :: ("Channel ".toList ++ escapeChars c.name.toList ++ " - ".toList ++
    '#' :: (stateChars c ++ '*' :: ([] ++ '*' ::
      (" : ".toList ++ escapeChars note.toList ++ rest)))), ?_, ?_⟩
  · have front : "**Channel ".toList = '*' :: '*' :: "Channel ".toList := by decide
    have hash : " - #".toList = " - ".toList ++ ['#'] := by decide
    have back : "** : ".toList = '*' :: '*' :: " : ".toList := by decide
    rw [toList_reportSection, front, hash, back]
    simp only [List.append_assoc, List.cons_append, List.nil_append]
  · rw [spells_nil.spans_mark (by decide) (by decide), title.spans_mark (by decide) (by decide),
      (spells_stateChars c).spans_mark (by decide) (by decide),
      spells_nil.spans_mark (by decide) (by decide)]

theorem Section.read?_lineChars (f : Channel × String) :
    Section.read? (titleChars f.1) (stateChars f.1) (lineChars f.2) = some (Section.of f) := by
  have title : between? "Channel ".toList " - ".toList (titleChars f.1) = some f.1.name.toList :=
    between?_append _ _ _
  have line : (lineChars f.2).dropPrefix? " : ".toList = some f.2.toList :=
    List.dropPrefix?_append_of_beq _ (beq_self_eq_true _)
  rw [Section.read?, title, readState?_stateChars, line]
  show some (Section.mk (String.ofList f.1.name.toList) _ _ (String.ofList f.2.toList)) = _
  rw [String.ofList_toList, String.ofList_toList]
  rfl

/-! ## Reports -/

/-- The characters of a report. -/
def renderChars (findings : List (Channel × String)) : List Char :=
  ['\n', '\n'].intercalate (findings.map fun f => (reportSection f.1 f.2).toList)

theorem toList_render (r : Report) : r.render.toList = renderChars r.findings := by
  rw [Report.render, String.toList_intercalate, List.map_map]
  rfl

theorem renderChars_cons (f g : Channel × String) (fs : List (Channel × String)) :
    renderChars (f :: g :: fs) =
      (reportSection f.1 f.2).toList ++ (['\n', '\n'] ++ renderChars (g :: fs)) := by
  rw [renderChars, List.map_cons, List.map_cons, List.intercalate_cons_cons, List.append_assoc]
  rfl

/-- What is read of a report behind the mark that it begins with : the sections of the channels. -/
theorem exists_readSections?_renderChars (f : Channel × String) (fs : List (Channel × String)) :
    ∃ body, renderChars (f :: fs) = '*' :: body ∧
      readSections? (spans body) = some ((f :: fs).map Section.of) := by
  induction fs generalizing f with
  | nil =>
    obtain ⟨body, chars, read⟩ := exists_spans_reportSection f.1 f.2 []
    refine ⟨body, ?_, ?_⟩
    · rw [← chars, renderChars, List.map_singleton, List.intercalate_singleton, List.append_nil]
    · rw [read, List.append_nil, (spells_line f.2).spans_eq, readSections?,
        Section.read?_lineChars]
      rfl
  | cons g gs ih =>
    obtain ⟨later, charsLater, readLater⟩ := ih g
    obtain ⟨body, chars, read⟩ :=
      exists_spans_reportSection f.1 f.2 (['\n', '\n'] ++ '*' :: later)
    have lineEnd : Spells (" : ".toList ++ escapeChars f.2.toList ++ ['\n', '\n'])
        (lineChars f.2 ++ ['\n', '\n']) := (spells_line f.2).append (spells_plain (by decide))
    -- the empty line between two sections is read with the note before it
    have line : (lineChars f.2 ++ ['\n', '\n']).dropSuffix? "\n\n".toList = some (lineChars f.2) :=
      List.dropSuffix?_eq_some_iff.mpr ⟨['\n', '\n'], rfl, by decide⟩
    obtain ⟨first, others, h⟩ := List.exists_cons_of_ne_nil (spans_ne_nil later)
    refine ⟨body, ?_, ?_⟩
    · rw [← chars, renderChars_cons, charsLater]
    · rw [read, ← List.append_assoc, lineEnd.spans_mark (by decide) (by decide), h, readSections?,
        line, ← h, readLater]
      · show (do let s ← Section.read? _ _ _; _) = _
        rw [Section.read?_lineChars]
        rfl
      · exact fun same => absurd same (List.cons_ne_nil first others)

theorem Report.read?_render (r : Report) :
    Report.read? r.render = some (r.findings.map Section.of) := by
  obtain ⟨findings⟩ := r
  rw [Report.read?, toList_render]
  cases findings with
  | nil => rfl
  | cons f fs =>
    obtain ⟨body, chars, read⟩ := exists_readSections?_renderChars f fs
    rw [chars, ← List.nil_append ('*' :: body), spells_nil.spans_mark (by decide) (by decide)]
    exact read

/-! ## Paragraphs -/

/-- No blank line of a name is between two others, and no line of a note is blank but the first :
the first and the last line of a name and the first line of a note share their lines with other
parts of the section. -/
def IsWhole (f : Channel × String) : Prop :=
  (∀ line ∈ (lines f.1.name.toList).tail.dropLast, isBlankLine line = false) ∧
    ∀ line ∈ (lines f.2.toList).tail, isBlankLine line = false

theorem lines_escapeChars (cs : List Char) :
    lines (escapeChars cs) = (lines cs).map escapeChars := by
  induction cs with
  | nil => rfl
  | cons c cs ih =>
    obtain ⟨first, rest, h⟩ := exists_lines cs
    rw [h, List.map_cons] at ih
    by_cases feed : c = '\n'
    · subst feed
      rw [escapeChars, if_neg (by decide), lines_feed, lines_feed, ih, h]
      rfl
    · rw [escapeChars, lines_char feed, h, List.modifyHead_cons, List.map_cons, escapeChars]
      split
      · rw [lines_char (by decide), lines_char feed, ih]
        rfl
      · rw [lines_char feed, ih]
        rfl

theorem isBlankLine_escapeChars (line : List Char) :
    isBlankLine (escapeChars line) = isBlankLine line := by
  have ink : markdownSpecials.all (!isBlank ·) = true := by decide
  induction line with
  | nil => rfl
  | cons c line ih =>
    rw [isBlankLine] at ih
    rw [escapeChars]
    split
    case isTrue special =>
      have ink' := List.all_eq_true.mp ink c (List.contains_iff_mem.mp special)
      rw [Bool.not_eq_true'] at ink'
      rw [isBlankLine, List.all_cons, List.all_cons, isBlankLine, List.all_cons, ink',
        Bool.false_and, Bool.false_and, Bool.and_false]
    case isFalse plain =>
      rw [isBlankLine, isBlankLine, List.all_cons, List.all_cons, ih, isBlankLine]

/-- What is between the name of a channel and its note. -/
def middleChars (c : Channel) : List Char :=
  " - #".toList ++ stateChars c ++ "** : ".toList

theorem isSolid_reportSection_iff (f : Channel × String) :
    IsSolid (reportSection f.1 f.2).toList ↔ IsWhole f := by
  have parts : (reportSection f.1 f.2).toList =
      "**Channel ".toList ++ (escapeChars f.1.name.toList ++
        (middleChars f.1 ++ escapeChars f.2.toList)) := by
    delta middleChars
    rw [toList_reportSection]
    simp only [List.append_assoc]
  have oneLine : '\n' ∉ middleChars f.1 := by
    have ends : '\n' ∉ " - #".toList ∧ '\n' ∉ "** : ".toList := by decide
    intro h
    rcases List.mem_append.mp h with h | h
    · rcases List.mem_append.mp h with h | h
      · exact ends.1 h
      · exact absurd (isPlain_of_mem_stateChars h) (by decide)
    · exact ends.2 h
  have ink : HasInk (middleChars f.1) :=
    ⟨'-', List.mem_append_left _ (List.mem_append_left _ (by decide)), by decide⟩
  rw [parts, isSolid_append (by decide) ⟨'*', by decide, by decide⟩,
    forall_mem_tail_lines oneLine ink, lines_escapeChars, lines_escapeChars, ← List.map_tail,
    ← List.map_dropLast, ← List.map_tail, List.forall_mem_map, List.forall_mem_map]
  simp only [isBlankLine_escapeChars, IsWhole]

/-- Whatever the names and the notes are, a report has just the sections of its channels, in their
order, and they can be read off it, from all of it or one by one. They are its paragraphs if and
only if each of them is whole. -/
theorem Report.sections_render (r : Report) :
    Report.read? r.render = some (r.findings.map Section.of) ∧
      (∀ f ∈ r.findings, Report.read? (reportSection f.1 f.2) = some [Section.of f]) ∧
      (paragraphs r.render = r.findings.map (fun f => reportSection f.1 f.2) ↔
        ∀ f ∈ r.findings, IsWhole f) := by
  refine ⟨r.read?_render, fun f _ => ?_, ?_⟩
  · have alone : (Report.mk [f]).render = reportSection f.1 f.2 := String.intercalate_singleton
    rw [← alone]
    exact Report.read?_render ⟨[f]⟩
  · rw [Report.render, paragraphs_intercalate_iff, List.forall_mem_map]
    simp only [isSolid_reportSection_iff]

/-- An answer of a provider with an empty line in it. -/
def overloaded : Failure :=
  .probe (.provider ⟨503, "Provider API error: overloaded\n\nplease retry", "overloaded_error",
    none, none⟩)

/-- The channel that was probed. -/
def busy : Channel := ⟨1, "busy", .openAI, "sk-test", none, .enabled, 1, none, []⟩

/-- The one section is two paragraphs, and the second one names no channel. -/
theorem Report.paragraphs_overloaded :
    let note := (Verdict.of ⟨true, none⟩ busy.status (some overloaded) 0).note
    paragraphs (Report.render ⟨[(busy, note)]⟩) =
      ["**Channel busy - #1 - enabled** : test error: Provider API error: overloaded",
        "please retry"] := by
  decide +kernel

end Switchboard.Health
