import Mathlib.Logic.Function.Basic
import Switchboard.Health.Report

/-!
# Escaped markdown

Markdown is read from left to right, and a backslash escapes the character behind it. So the
text is a list of characters, each of them escaped or not (`glyphs`), and what a backslash does
may depend on any number of backslashes before it.

Of an escaped text the reader gets the characters of the text, the special ones escaped and the
others not, whatever stands behind it (`glyphs_escapeChars_append`). All that is asked of
escaping follows : the text can be had back, no two texts become one, texts can be escaped
piece by piece, and no special character has its meaning any more
(`escapeMarkdown_reversible`).
-/

namespace Switchboard.Health

/-! ## Reading -/

/-- A character as markdown is read, escaped by a backslash before it or not. -/
structure Glyph where
  char : Char
  escaped : Bool
  deriving DecidableEq, Repr

/-- What is read of a text. A backslash that stands last escapes nothing. -/
def glyphs : List Char → List Glyph
  | '\\' :: c :: cs => ⟨c, true⟩ :: glyphs cs
  | c :: cs => ⟨c, false⟩ :: glyphs cs
  | [] => []

/-- The text without the backslashes that escape. -/
def unescapeMarkdown (s : String) : String :=
  String.ofList ((glyphs s.toList).map Glyph.char)

/-- The special characters of a text are escaped, and no other characters. -/
def IsEscaped (s : String) : Prop :=
  ∀ g ∈ glyphs s.toList, g.escaped = true ↔ g.char ∈ markdownSpecials

/-- A character as it is read where all special characters are escaped. -/
def Glyph.ofChar (c : Char) : Glyph := ⟨c, markdownSpecials.contains c⟩

theorem glyphs_cons {c : Char} (h : c ≠ '\\') (cs : List Char) :
    glyphs (c :: cs) = ⟨c, false⟩ :: glyphs cs := by
  rw [glyphs]
  exact fun d ds hc => absurd hc h

/-- Characters that are no backslashes are read one by one. -/
theorem glyphs_append {cs : List Char} (h : '\\' ∉ cs) (rest : List Char) :
    glyphs (cs ++ rest) = cs.map (⟨·, false⟩) ++ glyphs rest := by
  induction cs with
  | nil => rfl
  | cons c cs ih =>
    obtain ⟨hc, hcs⟩ := List.ne_and_not_mem_of_not_mem_cons h
    rw [List.cons_append, glyphs_cons hc.symm, ih hcs]
    rfl

/-! ## Escaping -/

/-- What is read of an escaped text, whatever stands behind it. -/
theorem glyphs_escapeChars_append (cs rest : List Char) :
    glyphs (escapeChars cs ++ rest) = cs.map Glyph.ofChar ++ glyphs rest := by
  induction cs with
  | nil => rfl
  | cons c cs ih =>
    rw [escapeChars]
    split
    case isTrue special =>
      rw [List.cons_append, List.cons_append, glyphs, ih, List.map_cons, Glyph.ofChar, special]
      rfl
    case isFalse plain =>
      -- the backslash is special itself
      have noBackslash : c ≠ '\\' := by
        rintro rfl
        exact plain (by decide)
      rw [List.cons_append, glyphs_cons noBackslash, ih, List.map_cons, Glyph.ofChar,
        eq_false_of_ne_true plain]
      rfl

theorem glyphs_escapeMarkdown (s : String) :
    glyphs (escapeMarkdown s).toList = s.toList.map Glyph.ofChar := by
  have h := glyphs_escapeChars_append s.toList []
  rwa [List.append_nil, glyphs, List.append_nil, ← String.toList_ofList (l := escapeChars _)] at h

theorem unescapeMarkdown_escapeMarkdown (s : String) : unescapeMarkdown (escapeMarkdown s) = s := by
  have chars : Glyph.char ∘ Glyph.ofChar = id := rfl
  rw [unescapeMarkdown, glyphs_escapeMarkdown, List.map_map, chars, List.map_id,
    String.ofList_toList]

theorem isEscaped_escapeMarkdown (s : String) : IsEscaped (escapeMarkdown s) := by
  intro g hg
  rw [glyphs_escapeMarkdown] at hg
  obtain ⟨c, -, rfl⟩ := List.mem_map.mp hg
  exact List.contains_iff_mem

theorem escapeChars_append (xs ys : List Char) :
    escapeChars (xs ++ ys) = escapeChars xs ++ escapeChars ys := by
  induction xs with
  | nil => rfl
  | cons c xs ih =>
    rw [List.cons_append, escapeChars, escapeChars, ih]
    split <;> rfl

theorem escapeMarkdown_append (s t : String) :
    escapeMarkdown (s ++ t) = escapeMarkdown s ++ escapeMarkdown t := by
  rw [escapeMarkdown, String.toList_append, escapeChars_append, String.ofList_append]
  rfl

theorem escapeMarkdown_injective : Function.Injective escapeMarkdown :=
  Function.LeftInverse.injective unescapeMarkdown_escapeMarkdown

/-- Escaping is undone by taking away the backslashes that escape, so that no two texts are
escaped alike ; it goes piece by piece ; and in an escaped text, read from left to right, just
the special characters are escaped. -/
theorem escapeMarkdown_reversible (s t : String) :
    unescapeMarkdown (escapeMarkdown s) = s ∧
      (escapeMarkdown s = escapeMarkdown t ↔ s = t) ∧
      escapeMarkdown (s ++ t) = escapeMarkdown s ++ escapeMarkdown t ∧
      IsEscaped (escapeMarkdown s) :=
  ⟨unescapeMarkdown_escapeMarkdown s, escapeMarkdown_injective.eq_iff,
    escapeMarkdown_append s t, isEscaped_escapeMarkdown s⟩

/-- Backslashes before a special character. -/
example : escapeMarkdown "\\\\*" = "\\\\\\\\\\*" := by decide

end Switchboard.Health
