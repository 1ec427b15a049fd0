/-!
# UTF-8

Bytes as characters. A byte that cannot go on with the character before it breaks that
character off and is looked at afresh. What was broken off, a byte that starts no
character, and a character that the end cuts short are pieces without a character; a
tolerant reader puts a replacement character for each of them.
-/

namespace Switchboard.Text.Utf8

/-- A character that has begun: its value so far, how many bytes are still to come, and
the range of the next one. -/
structure Begun where
  value : Nat
  owed : Nat
  low : Nat
  high : Nat
  deriving DecidableEq, Repr

/-- The start of a character. -/
def begin? (b : Nat) : Option Begun :=
  if b ≤ 0x7F then some ⟨b, 0, 0x80, 0xBF⟩
  else if 0xC2 ≤ b ∧ b ≤ 0xDF then some ⟨b - 0xC0, 1, 0x80, 0xBF⟩
  else if b = 0xE0 then some ⟨0, 2, 0xA0, 0xBF⟩
  else if b = 0xED then some ⟨0xD, 2, 0x80, 0x9F⟩
  else if 0xE1 ≤ b ∧ b ≤ 0xEF then some ⟨b - 0xE0, 2, 0x80, 0xBF⟩
  else if b = 0xF0 then some ⟨0, 3, 0x90, 0xBF⟩
  else if 0xF1 ≤ b ∧ b ≤ 0xF3 then some ⟨b - 0xF0, 3, 0x80, 0xBF⟩
  else if b = 0xF4 then some ⟨4, 3, 0x80, 0x8F⟩
  else none

/-- The character with one more byte. -/
def Begun.next? (s : Begun) (b : Nat) : Option Begun :=
  if s.low ≤ b ∧ b ≤ s.high then some ⟨s.value * 64 + (b - 0x80), s.owed - 1, 0x80, 0xBF⟩
  else none

/-- Put a character down if it is whole. -/
def Begun.settle (s : Begun) : List (Option Char) × Option Begun :=
  if s.owed = 0 then ([some (Char.ofNat s.value)], none) else ([], some s)

/-- Take a byte between characters. -/
def takeFirst (b : Nat) : List (Option Char) × Option Begun :=
  match begin? b with
  | some s => s.settle
  | none => ([none], none)

/-- Take a byte. -/
def take (s : Option Begun) (b : Nat) : List (Option Char) × Option Begun :=
  match s with
  | none => takeFirst b
  | some s =>
    match s.next? b with
    | some s => s.settle
    | none => let (out, s) := takeFirst b; (none :: out, s)

/-- The pieces of what follows a character that has begun. -/
def piecesFrom (s : Option Begun) : List UInt8 → List (Option Char)
  | [] => if s.isSome then [none] else []
  | b :: rest => let (out, s) := take s b.toNat; out ++ piecesFrom s rest

/-- The characters of bytes, in order. -/
def pieces (bytes : List UInt8) : List (Option Char) := piecesFrom none bytes

/-- The text of bytes that are characters throughout. -/
def text? (bytes : List UInt8) : Option String := ((pieces bytes).mapM id).map String.ofList

/-- The characters before the first piece without one. -/
def validStart (bytes : List UInt8) : List Char :=
  ((pieces bytes).takeWhile Option.isSome).filterMap id

/-- The text of any bytes. -/
def tolerant (bytes : List UInt8) : String :=
  String.ofList ((pieces bytes).map fun c => c.getD '\uFFFD')

/-- The characters behind a byte order mark, if there is one. -/
def dropMark : List Char → List Char
  | '\uFEFF' :: rest => rest
  | cs => cs

end Switchboard.Text.Utf8
