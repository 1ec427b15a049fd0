import Mathlib.Data.List.Basic
import Switchboard.Http.ServerEvent

/-!
# Reading server-sent events

What a text of server-sent events is read as. A text without a line end, ended by a line feed,
is the next line (`endedLines_append`), and a line with a name, one with data and a blank one are
an event (`ofChars_event`). Whatever the text, the events that are read of it have names that
are not empty and have no line end in them (`isEventName_of_mem_ofChars`).
-/

namespace Switchboard

/-- A text without a line end. -/
def IsLine (cs : List Char) : Prop := ∀ c ∈ cs, c ≠ '\n' ∧ c ≠ '\r'

-- By way of the list : there are too many characters to go through all of them.
instance (cs : List Char) : Decidable (IsLine cs) := List.decidableBAll _ cs

@[simp] theorem isLine_nil : IsLine [] := nofun

@[simp] theorem isLine_cons {c : Char} {cs : List Char} :
    IsLine (c :: cs) ↔ (c ≠ '\n' ∧ c ≠ '\r') ∧ IsLine cs :=
  List.forall_mem_cons

@[simp] theorem isLine_append {xs ys : List Char} : IsLine (xs ++ ys) ↔ IsLine xs ∧ IsLine ys :=
  List.forall_mem_append

theorem IsLine.subset {xs ys : List Char} (h : IsLine ys) (sub : xs ⊆ ys) : IsLine xs :=
  fun c hc => h c (sub hc)

namespace Http.ServerEvent

/-- A name that an event can be sent with. -/
def IsEventName (name : String) : Prop := name ≠ "" ∧ IsLine name.toList

instance (name : String) : Decidable (IsEventName name) :=
  inferInstanceAs (Decidable (_ ∧ _))

/-! ## Lines -/

variable {line xs : List Char}

theorem endedLinesFrom_append (h : IsLine xs) (line rest : List Char) :
    endedLinesFrom line (xs ++ rest) = endedLinesFrom (line ++ xs) rest := by
  induction xs generalizing line with
  | nil => rw [List.nil_append, List.append_nil]
  | cons c xs ih =>
    obtain ⟨⟨noFeed, noReturn⟩, h⟩ := isLine_cons.mp h
    rw [List.cons_append, endedLinesFrom, ih h, List.append_assoc, List.singleton_append]
    all_goals simp [noFeed, noReturn]

/-- A line that a line feed ends. -/
theorem endedLines_append (h : IsLine xs) (rest : List Char) :
    endedLines (xs ++ '\n' :: rest) = xs :: endedLines rest := by
  rw [endedLines, endedLinesFrom_append h, List.nil_append, endedLinesFrom, endedLines]

/-- The lines of a text have no line ends, whatever the text. -/
theorem isLine_of_mem_endedLinesFrom {cs : List Char} (begun : IsLine line)
    (h : xs ∈ endedLinesFrom line cs) : IsLine xs := by
  fun_induction endedLinesFrom line cs with
  | case1 | case2 => cases h
  | case3 line rest ih | case4 line c rest hc ih | case5 line rest ih =>
    exact (List.mem_cons.mp h).elim (· ▸ begun) (ih isLine_nil)
  | case6 line c rest notLast _ notOne noFeed ih =>
    have noReturn : c ≠ '\r' := fun hc => by
      cases rest with
      | nil => exact notLast hc rfl
      | cons d rest => exact notOne d rest hc rfl
    exact ih (isLine_append.mpr ⟨begun, by simpa using ⟨noFeed, noReturn⟩⟩) h

/-! ## Fields -/

/-- The value of a field is a part of its line. -/
theorem value_subset (line : List Char) : (fieldOf line).2 ⊆ line := by
  have behind := List.drop_subset (line.takeWhile (· ≠ ':')).length line
  unfold fieldOf
  dsimp only
  split <;> rename_i h
  · rw [h] at behind
    exact fun c hc => behind (List.mem_cons_of_mem _ (List.mem_cons_of_mem _ hc))
  · rw [h] at behind
    exact fun c hc => behind (List.mem_cons_of_mem _ hc)
  · exact List.nil_subset line

theorem Draft.isLine_add {d : Draft} (hd : IsLine d.name) (h : IsLine line) :
    IsLine (d.add line).name := by
  have value := value_subset line
  unfold Draft.add
  split <;> rename_i hf
  · rw [hf] at value
    exact h.subset value
  · exact hd
  · exact hd

/-! ## Events -/

theorem Draft.isEventName_of_event? {d : Draft} (hd : IsLine d.name) {e : ServerEvent}
    (h : d.event? = some e) : IsEventName e.name := by
  unfold Draft.event? at h
  split_ifs at h with noData noName
  · cases h
    exact (by decide : IsEventName "message")
  · cases h
    exact ⟨by simpa using noName, by simpa using hd⟩

theorem isEventName_of_mem_ofLines {d : Draft} (hd : IsLine d.name) {lines : List (List Char)}
    (hl : ∀ line ∈ lines, IsLine line) {e : ServerEvent} (h : e ∈ ofLines d lines) :
    IsEventName e.name := by
  fun_induction ofLines d lines with
  | case1 => cases h
  | case2 d rest ih =>
    rcases List.mem_append.mp h with h | h
    · exact Draft.isEventName_of_event? hd (Option.mem_toList.mp h)
    · exact ih isLine_nil (fun line hm => hl line (List.mem_cons_of_mem _ hm)) h
  | case3 d line rest _ ih =>
    exact ih (Draft.isLine_add hd (hl line List.mem_cons_self))
      (fun line hm => hl line (List.mem_cons_of_mem _ hm)) h

/-- The events that are read of a text have event names, whatever the text. -/
theorem isEventName_of_mem_ofChars {cs : List Char} {e : ServerEvent} (h : e ∈ ofChars cs) :
    IsEventName e.name :=
  isEventName_of_mem_ofLines isLine_nil
    (fun _ hm => isLine_of_mem_endedLinesFrom isLine_nil hm) h

theorem ofChars_nil : ofChars [] = [] := by
  rw [ofChars, endedLines, endedLinesFrom, ofLines]

/-- A line with a name, one with data and a blank one are an event. -/
theorem ofChars_event {name data : List Char} (named : name ≠ []) (hn : IsLine name)
    (hd : IsLine data) (rest : List Char) :
    ofChars ("event: ".toList ++ name ++
        '\n' :: ("data: ".toList ++ data ++ '\n' :: '\n' :: rest)) =
      ⟨String.ofList name, String.ofList data⟩ :: ofChars rest := by
  have first : IsLine ("event: ".toList ++ name) := isLine_append.mpr ⟨by decide, hn⟩
  have second : IsLine ("data: ".toList ++ data) := isLine_append.mpr ⟨by decide, hd⟩
  have blank : endedLines ('\n' :: rest) = [] :: endedLines rest :=
    endedLines_append isLine_nil rest
  have collected : (Draft.empty.add ("event: ".toList ++ name)).add ("data: ".toList ++ data) =
      ⟨name, [data]⟩ := rfl
  have done : Draft.event? ⟨name, [data]⟩ = some ⟨String.ofList name, String.ofList data⟩ := by
    simp [Draft.event?, named]
  rw [ofChars, endedLines_append first, endedLines_append second, blank]
  show ofLines ((Draft.empty.add ("event: ".toList ++ name)).add ("data: ".toList ++ data))
    ([] :: endedLines rest) = _
  rw [collected, ofLines, done, ofChars]
  rfl

end Http.ServerEvent

end Switchboard
