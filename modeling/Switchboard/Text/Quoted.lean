import Switchboard.Text.Hexadecimal
import Switchboard.Text.Lowercase
import Switchboard.Text.MarkTables

/-!
# Quoted texts

A text in quotation marks on one line. Characters that would end it, break the line or
not be seen are escaped.
-/

namespace Switchboard.Text

/-- A character as it stands in quotation marks. -/
def quoteChar (c : Char) : String :=
  match c with
  | '"' => "\\\""
  | '\\' => "\\\\"
  | '\n' => "\\n"
  | '\r' => "\\r"
  | '\t' => "\\t"
  | _ =>
    if c.toNat = 0 then "\\0"
    else if inRanges unmarkedRanges c.toNat then "\\u\x7b" ++ hexDigits c.toNat ++ "\x7d"
    else String.singleton c

/-- A text in quotation marks. -/
def quote (s : String) : String := "\"" ++ String.join (s.toList.map quoteChar) ++ "\""

end Switchboard.Text
