import Mathlib.Data.List.DropRight
import Switchboard.Text.Blank
import Switchboard.Text.Search

/-!
# The lines of a text

A separator between two texts separates their parts (`split_append`), and a text without
one has a single part. Trimming a line takes nothing from a mark at its front
(`trimChars_append`), and what stands behind the mark is then trimmed as if it stood alone.
-/

namespace Switchboard.Text

/-! ## Parts -/

section Split

variable {separator : Char}

theorem splitChars_ne_nil (separator : Char) (cs : List Char) : splitChars separator cs ≠ [] := by
  cases cs with
  | nil => exact List.cons_ne_nil [] []
  | cons c cs =>
    unfold splitChars
    split
    · split_ifs <;> exact List.cons_ne_nil _ _
    · exact List.cons_ne_nil _ _

/-- Two texts with a separator between them have their parts side by side. -/
theorem splitChars_append (xs ys : List Char) : splitChars separator (xs ++ separator :: ys) =
    splitChars separator xs ++ splitChars separator ys := by
  induction xs with
  | nil =>
    obtain ⟨part, parts, h⟩ := List.exists_cons_of_ne_nil (splitChars_ne_nil separator ys)
    simp only [List.nil_append, splitChars, h, if_true, List.singleton_append]
  | cons c xs ih =>
    obtain ⟨part, parts, h⟩ := List.exists_cons_of_ne_nil (splitChars_ne_nil separator xs)
    rw [h] at ih
    rw [List.cons_append, splitChars, ih, splitChars, h, List.cons_append]
    split_ifs <;> rfl

theorem splitChars_of_not_mem {cs : List Char} (h : separator ∉ cs) :
    splitChars separator cs = [cs] := by
  induction cs with
  | nil => rfl
  | cons c cs ih =>
    obtain ⟨hc, hs⟩ := List.ne_and_not_mem_of_not_mem_cons h
    rw [splitChars, ih hs]
    exact if_neg (Ne.symm hc)

/-- A part has no characters but those of the text. -/
theorem subset_of_mem_splitChars {cs part : List Char} (h : part ∈ splitChars separator cs) :
    part ⊆ cs := by
  induction cs generalizing part with
  | nil =>
    obtain rfl := List.mem_singleton.mp h
    exact List.Subset.refl []
  | cons c cs ih =>
    obtain ⟨first, parts, hf⟩ := List.exists_cons_of_ne_nil (splitChars_ne_nil separator cs)
    rw [splitChars, hf] at h
    rw [hf] at ih
    have hfirst : first ⊆ cs := ih List.mem_cons_self
    have hrest : ∀ part ∈ parts, part ⊆ c :: cs := fun part hp =>
      List.Subset.trans (ih (List.mem_cons_of_mem first hp)) (List.subset_cons_self c cs)
    split_ifs at h
    · rcases List.mem_cons.mp h with rfl | h
      · exact List.nil_subset _
      rcases List.mem_cons.mp h with rfl | h
      · exact List.Subset.trans hfirst (List.subset_cons_self c cs)
      · exact hrest part h
    · rcases List.mem_cons.mp h with rfl | h
      · exact List.cons_subset_cons c hfirst
      · exact hrest part h

theorem split_append (s t : String) :
    split separator (s ++ (String.singleton separator ++ t)) =
      split separator s ++ split separator t := by
  have h : (s ++ (String.singleton separator ++ t)).toList =
      s.toList ++ separator :: t.toList := by simp
  rw [split, h, splitChars_append, List.map_append, split, split]

theorem split_of_not_mem {s : String} (h : separator ∉ s.toList) : split separator s = [s] := by
  rw [split, splitChars_of_not_mem h, List.map_singleton, String.ofList_toList]

end Split

theorem dropStart?_append (start s : String) : dropStart? start (start ++ s) = some s := by
  have h : start.toList.isPrefixOf (start ++ s).toList = true := by
    rw [String.toList_append, List.isPrefixOf_iff_prefix]
    exact List.prefix_append _ _
  rw [dropStart?, if_pos h, String.toList_append, ← String.length_toList, List.drop_left,
    String.ofList_toList]

/-! ## Trimming -/

theorem trimChars_of_blank {cs : List Char} (h : ∀ c ∈ cs, isBlank c = true) :
    trimChars cs = [] := by
  rw [trimChars, trimStartChars, List.dropWhile_eq_nil_iff.mpr h]
  rfl

theorem trimEndChars_trimEndChars (cs : List Char) :
    trimEndChars (trimEndChars cs) = trimEndChars cs := by
  rw [trimEndChars, trimEndChars, List.reverse_reverse, List.dropWhile_idempotent]

/-- Who trims both ends may trim the end before. -/
theorem trimChars_trimEndChars (cs : List Char) : trimChars (trimEndChars cs) = trimChars cs := by
  cases hs : trimStartChars cs with
  | nil =>
    have hb : ∀ c ∈ cs, isBlank c = true := List.dropWhile_eq_nil_iff.mp hs
    have hsub : trimEndChars cs ⊆ cs := fun c hc =>
      List.mem_reverse.mp ((List.dropWhile_sublist _).subset (List.mem_reverse.mp hc))
    rw [trimChars_of_blank hb, trimChars_of_blank fun c hc => hb c (hsub hc)]
  | cons c rest =>
    have hc : isBlank c = false := by
      have hn := List.head?_dropWhile_not isBlank cs
      rw [trimStartChars] at hs
      rwa [hs] at hn
    have he : cs = cs.takeWhile isBlank ++ [c] ++ rest := by
      rw [List.append_assoc, List.singleton_append, ← hs, trimStartChars,
        List.takeWhile_append_dropWhile]
    have hcons : ∀ xs, trimEndChars (c :: xs) = c :: trimEndChars xs :=
      trimEndChars_append_concat hc []
    rw [trimChars, trimChars, hs, hcons]
    conv_lhs => rw [he]
    rw [trimEndChars_append_concat hc, List.append_assoc, List.singleton_append,
      trimStartChars_append_of_blank (all_isBlank_takeWhile cs) hc, hcons,
      trimEndChars_trimEndChars]

/-- Trimming takes nothing from a mark that begins and ends with characters that are not
blank. -/
theorem trimChars_append {a b : Char} (ha : isBlank a = false) (hb : isBlank b = false)
    (mark cs : List Char) :
    trimChars (a :: mark ++ [b] ++ cs) = a :: mark ++ [b] ++ trimEndChars cs := by
  have hs : trimStartChars (a :: mark ++ [b] ++ cs) = a :: mark ++ [b] ++ cs :=
    trimStartChars_append_of_blank (List.forall_mem_nil _) ha _
  rw [trimChars, hs, trimEndChars_append_concat hb]

end Switchboard.Text
