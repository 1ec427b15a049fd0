import Switchboard.Json.Numeral

/-!
# Writing JSON

Values are written without blanks, the members of an object in the order they have. In
a text the quote, the backslash and the characters below the space are escaped and all
else stands for itself.
-/

namespace Switchboard.Json

/-- A character as it stands inside quotes. -/
def escapeChar (c : Char) : List Char :=
  if c = '"' then ['\\', '"']
  else if c = '\\' then ['\\', '\\']
  else if c = '\x08' then ['\\', 'b']
  else if c = '\x0c' then ['\\', 'f']
  else if c = '\n' then ['\\', 'n']
  else if c = '\r' then ['\\', 'r']
  else if c = '\t' then ['\\', 't']
  else if c.toNat < 0x20 then
    ['\\', 'u', '0', '0', (c.toNat / 16).digitChar, (c.toNat % 16).digitChar]
  else [c]

/-- The characters of a text in quotation marks. -/
def quoted (s : String) : List Char := '"' :: s.toList.flatMap escapeChar ++ ['"']

mutual

/-- The characters of a value. -/
def print : Json → List Char
  | .null => ['n', 'u', 'l', 'l']
  | .bool true => ['t', 'r', 'u', 'e']
  | .bool false => ['f', 'a', 'l', 's', 'e']
  | .number n => Numeral.write n
  | .string s => quoted s
  | .array items => '[' :: printItems items
  | .object members => '{' :: printMembers members

/-- The items after an opening bracket, to the closing one. -/
def printItems : List Json → List Char
  | [] => [']']
  | [item] => item.print ++ [']']
  | item :: rest => item.print ++ ',' :: printItems rest

/-- The members after an opening brace, to the closing one. -/
def printMembers : List (String × Json) → List Char
  | [] => ['}']
  | [(key, value)] => quoted key ++ ':' :: value.print ++ ['}']
  | (key, value) :: rest => quoted key ++ ':' :: value.print ++ ',' :: printMembers rest

end

/-- The text of a value. -/
def render (v : Json) : String := String.ofList v.print

end Switchboard.Json
