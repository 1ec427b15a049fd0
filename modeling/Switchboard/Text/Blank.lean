/-!
# Blank characters

The characters that separate words: those with the property White_Space in Unicode.
-/

namespace Switchboard.Text

/-- Spaces, tabs and breaks of lines, in every script. -/
def isBlank (c : Char) : Bool :=
  let n := c.toNat
  (0x09 ≤ n && n ≤ 0x0D) || n == 0x20 || n == 0x85 || n == 0xA0 || n == 0x1680 ||
    (0x2000 ≤ n && n ≤ 0x200A) || n == 0x2028 || n == 0x2029 || n == 0x202F || n == 0x205F ||
    n == 0x3000

/-- The characters without the blank ones at the front. -/
def trimStartChars (cs : List Char) : List Char := cs.dropWhile isBlank

/-- The characters without the blank ones at the end. -/
def trimEndChars (cs : List Char) : List Char := (cs.reverse.dropWhile isBlank).reverse

/-- The characters without the blanks at both ends. -/
def trimChars (cs : List Char) : List Char := trimEndChars (trimStartChars cs)

theorem all_isBlank_takeWhile (cs : List Char) : ∀ c ∈ cs.takeWhile isBlank, isBlank c = true := by
  induction cs with
  | nil => simp
  | cons c cs ih =>
    rw [List.takeWhile_cons]
    split
    case isTrue h => simpa [h] using ih
    case isFalse => simp

/-- Trimming takes blank characters from both ends. -/
theorem exists_eq_trimChars (cs : List Char) : ∃ front back, cs = front ++ (trimChars cs ++ back) ∧
    (∀ c ∈ front, isBlank c = true) ∧ ∀ c ∈ back, isBlank c = true := by
  refine ⟨cs.takeWhile isBlank, ((trimStartChars cs).reverse.takeWhile isBlank).reverse, ?_,
    all_isBlank_takeWhile cs, fun c hc => all_isBlank_takeWhile _ c (List.mem_reverse.mp hc)⟩
  rw [trimChars, trimEndChars, ← List.reverse_append, List.takeWhile_append_dropWhile,
    List.reverse_reverse, trimStartChars, List.takeWhile_append_dropWhile]

/-- Only blank characters behind one that is not blank are cut off. -/
theorem trimEndChars_append_concat {c : Char} (h : isBlank c = false) (xs ys : List Char) :
    trimEndChars (xs ++ [c] ++ ys) = xs ++ [c] ++ trimEndChars ys := by
  rw [trimEndChars, trimEndChars, List.reverse_append, List.dropWhile_append]
  split
  case isTrue hy =>
    have hn : ys.reverse.dropWhile isBlank = [] := List.isEmpty_iff.mp hy
    rw [hn, List.reverse_append, List.reverse_singleton, List.singleton_append,
      List.dropWhile_cons, h]
    simp
  case isFalse => rw [List.reverse_append, List.reverse_reverse]

theorem isBlank_of_trimEndChars {cs : List Char}
    (h : ∀ c ∈ trimEndChars cs, isBlank c = true) : ∀ c ∈ cs, isBlank c = true := by
  have he : cs = trimEndChars cs ++ (cs.reverse.takeWhile isBlank).reverse := by
    rw [trimEndChars, ← List.reverse_append, List.takeWhile_append_dropWhile, List.reverse_reverse]
  intro c hc
  rw [he] at hc
  rcases List.mem_append.mp hc with hc | hc
  · exact h c hc
  · exact all_isBlank_takeWhile _ c (List.mem_reverse.mp hc)

theorem trimStartChars_append_of_blank {front : List Char} (h : ∀ c ∈ front, isBlank c = true)
    {c : Char} (hc : isBlank c = false) (cs : List Char) :
    trimStartChars (front ++ c :: cs) = c :: cs := by
  rw [trimStartChars, List.dropWhile_append_of_pos h, List.dropWhile_cons, hc]
  rfl

/-- The text without blank characters at either end. -/
def trim (s : String) : String := String.ofList (trimChars s.toList)

/-- Whether a text holds blank characters only. -/
def isBlankText (s : String) : Bool := s.toList.all isBlank

end Switchboard.Text
