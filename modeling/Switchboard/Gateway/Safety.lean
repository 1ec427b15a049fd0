import Switchboard.Error
import Switchboard.Claude.Request
import Switchboard.Config.Settings
import Switchboard.Text.Blank
import Switchboard.Text.Lowercase

/-!
# Content safety

A checker looks at the text of a request's messages and says whether the request may go
on. The keyword checker refuses a text that contains one of its keywords, whatever the
case of either.
-/

namespace Switchboard.Gateway

/-- Whether a text may be sent on, and what the client is told if not. -/
structure Verdict where
  safe : Bool
  reason : String
  code : String
  deriving DecidableEq, Repr

/-- The text may be sent on. -/
def Verdict.pass : Verdict := ⟨true, "", ""⟩

/-- What looks at texts and passes a verdict on them. -/
abbrev Checker := String → Verdict

/-- The keywords that count: without blanks at the ends, in lower case, not empty. -/
def normalKeywords (keywords : List String) : List String :=
  (keywords.map fun k => Text.lowercase (Text.trim k)).filter fun k => !k.isEmpty

/-- Refuse a text that contains a keyword, and name the first such keyword. -/
def keywordChecker (keywords : List String) : Checker := fun content =>
  match (normalKeywords keywords).find? (Text.contains (Text.lowercase content)) with
  | some keyword =>
    ⟨false, "content contains blocked keyword \"" ++ keyword ++ "\"", "content_blocked"⟩
  | none => .pass

/-- The texts of a block that are looked at. -/
def checkedTexts : Claude.Block → List String
  | .text s _ _ => [s]
  | .toolResult _ (.string s) _ => [s]
  | _ => []

/-- The text of the messages, a line break between two of their texts. -/
def messageText (r : Claude.Request) : String :=
  "\n".intercalate (r.messages.flatMap fun m =>
    match m.content with
    | .text s => [s]
    | .blocks blocks => blocks.flatMap checkedTexts)

/-- Fail if the checker refuses the request. -/
def gate (checker : Checker) (r : Claude.Request) : Except Error Unit :=
  let verdict := checker (messageText r)
  if verdict.safe then .ok () else .error (.contentRejected verdict.code verdict.reason)

end Switchboard.Gateway
