import Switchboard.Json.Numeral
import Switchboard.Text.Hexadecimal

/-!
# Tokens of a JSON text

The lexer reads one character at a time: its state is what it has read of the current
token, so reading a text is a fold and reading `a ++ b` is reading `b` from the state
after `a`. Scalars are tokens of their own; a numeral or a word ends at the first
character that cannot belong to it.

A text with an escape for no character is a token too, a flawed one. Behind `\\u` its four
places are counted in bytes, whatever stands in them.
-/

namespace Switchboard.Json

/-- A token of a text. A numeral is not yet read as a number. -/
inductive Token where
  | openArray
  | closeArray
  | openObject
  | closeObject
  | colon
  | comma
  | scalar (value : Json)
  | numeral (parts : Numeral.Parts)
  | flawedText
  deriving Repr

/-- What has been read of the current token. Texts are kept backwards; `high` is a high
surrogate that waits for its partner. Of a flawed text nothing is kept; `skip` counts the
bytes that belong to an escape. -/
inductive LexState where
  | between
  | numeral (back : List Char)
  | word (back : List Char)
  | text (back : List Char)
  | escape (back : List Char) (high : Option Nat)
  | unicode (back : List Char) (high : Option Nat) (count : Nat) (value : Nat)
  | partner (back : List Char) (high : Nat)
  | flawed
  | flawedEscape
  | skip (bytes : Nat)
  deriving Repr

namespace LexState

/-- Whether a character only parts tokens. -/
def isBlank (c : Char) : Bool := c = ' ' || c = '\n' || c = '\t' || c = '\r'

/-- Whether a character may belong to a numeral. -/
def inNumeral (c : Char) : Bool :=
  c.isDigit || c = '-' || c = '+' || c = '.' || c = 'e' || c = 'E'

/-- The character after a backslash that stands for one other character. -/
def unescape? : Char → Option Char
  | '"' => some '"'
  | '\\' => some '\\'
  | '/' => some '/'
  | 'b' => some '\x08'
  | 'f' => some '\x0c'
  | 'n' => some '\n'
  | 'r' => some '\r'
  | 't' => some '\t'
  | _ => none

/-- The value that a word stands for. -/
def word? : List Char → Option Json
  | ['n', 'u', 'l', 'l'] => some .null
  | ['t', 'r', 'u', 'e'] => some (.bool true)
  | ['f', 'a', 'l', 's', 'e'] => some (.bool false)
  | _ => none

/-- Begin a token with a character that follows a finished one. -/
def start (c : Char) : Option (LexState × List Token) :=
  if isBlank c then some (between, [])
  else match c with
    | '[' => some (between, [.openArray])
    | ']' => some (between, [.closeArray])
    | '{' => some (between, [.openObject])
    | '}' => some (between, [.closeObject])
    | ':' => some (between, [.colon])
    | ',' => some (between, [.comma])
    | '"' => some (text [], [])
    | c =>
      if c.isDigit || c = '-' then some (numeral [c], [])
      else if c.isLower then some (word [c], [])
      else none

/-- The token that a numeral or a word amounts to. -/
def scalar? : LexState → Option (List Token)
  | between => some []
  | numeral back => (Numeral.parts? back.reverse).map fun p => [.numeral p]
  | word back => (word? back.reverse).map fun v => [.scalar v]
  | _ => none

/-- A code unit written in hexadecimal: a character, the first half of one, or the
second half for `high`. -/
def codeUnit (back : List Char) (high : Option Nat) (unit : Nat) : LexState :=
  let isLow := 0xDC00 ≤ unit && unit ≤ 0xDFFF
  match high with
  | some h =>
    if isLow then text (Char.ofNat (0x10000 + (h - 0xD800) * 0x400 + (unit - 0xDC00)) :: back)
    else flawed
  | none =>
    if 0xD800 ≤ unit && unit ≤ 0xDBFF then partner back unit
    else if isLow then flawed
    else text (Char.ofNat unit :: back)

/-- Read one character of a flawed text. -/
def stepFlawed (c : Char) : Option (LexState × List Token) :=
  if c = '"' then some (between, [.flawedText])
  else if c = '\\' then some (flawedEscape, [])
  else if c.toNat < 0x20 then none
  else some (flawed, [])

/-- Pass over a character where so many bytes are left of an escape. -/
def skipChar (bytes : Nat) (c : Char) : LexState :=
  if bytes ≤ c.utf8Size then flawed else skip (bytes - c.utf8Size)

/-- Read one character. -/
def step : LexState → Char → Option (LexState × List Token)
  | between, c => start c
  | numeral back, c =>
    if inNumeral c then some (numeral (c :: back), [])
    else do
      let done ← (numeral back).scalar?
      let (state, tokens) ← start c
      return (state, done ++ tokens)
  | word back, c =>
    if c.isLower then some (word (c :: back), [])
    else do
      let done ← (word back).scalar?
      let (state, tokens) ← start c
      return (state, done ++ tokens)
  | text back, c =>
    if c = '"' then some (between, [.scalar (.string (String.ofList back.reverse))])
    else if c = '\\' then some (escape back none, [])
    else if c.toNat < 0x20 then none
    else some (text (c :: back), [])
  | escape back high, c =>
    if c = 'u' then some (unicode back high 0 0, [])
    else (unescape? c).map fun d => (if high.isSome then flawed else text (d :: back), [])
  | unicode back high count value, c =>
    match Text.hexDigit? c with
    | none => some (skipChar (4 - count) c, [])
    | some d =>
      let value := value * 16 + d
      some (if count = 3 then codeUnit back high value else unicode back high (count + 1) value, [])
  | partner back high, c =>
    if c = '\\' then some (escape back (some high), []) else stepFlawed c
  | flawed, c => stepFlawed c
  | flawedEscape, c =>
    if c = 'u' then some (skip 4, []) else (unescape? c).map fun _ => (flawed, [])
  | skip bytes, c => some (skipChar bytes c, [])

/-- Read characters, from a state, into the tokens they complete. -/
def run : LexState → List Char → Option (LexState × List Token)
  | state, [] => some (state, [])
  | state, c :: cs => do
    let (state, tokens) ← state.step c
    let (last, more) ← run state cs
    return (last, tokens ++ more)

end LexState

/-- The tokens of a text. -/
def tokens? (cs : List Char) : Option (List Token) := do
  let (state, tokens) ← LexState.between.run cs
  let last ← state.scalar?
  return tokens ++ last

end Switchboard.Json
