import Switchboard.Config.Channel

/-!
# Reports

The report of a sweep is markdown with one section for each channel. Names and notes
come from outside, so the characters that markdown gives a meaning are escaped in them.
-/

namespace Switchboard.Health

/-- The title under which reports are posted. -/
def reportTitle : String := "Channel test finished"

/-- The characters with a meaning within a line of markdown. -/
def markdownSpecials : List Char := ['\\', '\x60', '*', '_', '~', '[', ']', '<', '>', '|', '#']

/-- Put a backslash before each special character. -/
def escapeChars : List Char → List Char
  | [] => []
  | c :: cs =>
    if markdownSpecials.contains c then '\\' :: c :: escapeChars cs else c :: escapeChars cs

/-- A text in which no character has a meaning in markdown. -/
def escapeMarkdown (s : String) : String := String.ofList (escapeChars s.toList)

/-- The section of a channel, with a note on it. -/
def reportSection (c : Channel) (note : String) : String :=
  "**Channel " ++ escapeMarkdown c.name ++ " - #" ++ toString c.id ++ " - " ++
    (if c.isEnabled then "enabled" else "disabled") ++ "** : " ++ escapeMarkdown note

/-- What a sweep found: channels as they were before their probe, with notes. -/
structure Report where
  findings : List (Channel × String)
  deriving DecidableEq, Repr

/-- Whether the sweep found no channel. -/
def Report.isEmpty (r : Report) : Bool := r.findings.isEmpty

/-- The sections, an empty line between two of them. -/
def Report.render (r : Report) : String :=
  "\n\n".intercalate (r.findings.map fun f => reportSection f.1 f.2)

end Switchboard.Health
