import Switchboard.Json.Numeral
import Switchboard.Json.Record

/-!
# Durations

A duration is a sum or a product of amounts of time, counted in nanoseconds. An amount
is a whole number and a unit; without a unit it is in seconds. Amounts that follow each
other without a sign are added. A product counts its factors in seconds. Sums and
products do not mix, and no amount or result exceeds 64 bits.
-/

namespace Switchboard.Duration

/-- The nanoseconds of a second. -/
def second : Nat := 1000000000

/-- The names of the units, with their nanoseconds. -/
def units : List (String × Nat) :=
  [("y", 31536000 * second), ("year", 31536000 * second), ("mon", 2592000 * second),
    ("month", 2592000 * second), ("w", 604800 * second), ("week", 604800 * second),
    ("d", 86400 * second), ("day", 86400 * second), ("h", 3600 * second),
    ("hr", 3600 * second), ("hour", 3600 * second), ("m", 60 * second), ("min", 60 * second),
    ("minute", 60 * second), ("s", second), ("sec", second), ("second", second),
    ("ms", 1000000), ("msec", 1000000), ("millisecond", 1000000), ("µs", 1000),
    ("µsec", 1000), ("µsecond", 1000), ("us", 1000), ("usec", 1000), ("usecond", 1000),
    ("microsecond", 1000), ("ns", 1), ("nsec", 1), ("nanosecond", 1)]

/-- How amounts are put together. -/
inductive Joint where
  | sum
  | product
  deriving DecidableEq, Repr

/-- What an expression consists of. -/
inductive Token where
  | digits (ds : List Char)
  | word (letters : List Char)
  | joint (j : Joint)
  deriving DecidableEq, Repr

/-- Whether a character may stand in the name of a unit. -/
def isLetter (c : Char) : Bool := c.isAlpha || c = 'µ'

/-- Put a character that stands right before `rest`, whose tokens are given. -/
def addChar (c : Char) (rest : List Char) (tokens : List Token) : Option (List Token) :=
  if c = ' ' || c = '\t' || c = '\n' || c = '\r' then some tokens
  else if c = '+' then some (.joint .sum :: tokens)
  else if c = '*' then some (.joint .product :: tokens)
  else if c.isDigit then
    match rest.head?.any Char.isDigit, tokens with
    | true, .digits ds :: later => some (.digits (c :: ds) :: later)
    | _, _ => some (.digits [c] :: tokens)
  else if isLetter c then
    match rest.head?.any isLetter, tokens with
    | true, .word letters :: later => some (.word (c :: letters) :: later)
    | _, _ => some (.word [c] :: tokens)
  else none

/-- The numbers, words and signs of a text. -/
def tokens? : List Char → Option (List Token)
  | [] => some []
  | c :: rest => (tokens? rest).bind (addChar c rest)

/-- A number of nanoseconds, if 64 bits hold it. -/
def fitting? (n : Nat) : Option Nat := if n ≤ Json.u64Max then some n else none

/-- So many of a unit. Capitals in its name do not matter. -/
def amount? (ds letters : List Char) : Option Nat := do
  let unit ← units.lookup (String.ofList (letters.map Char.toLower))
  fitting? (Numeral.decimalValue (Numeral.digits ds).1 * unit)

/-- Amounts, each with the sign before it. -/
def terms? : List Token → Option (List (Joint × Nat))
  | [] => some []
  | .joint j :: .digits ds :: .word letters :: rest => do
    return (j, ← amount? ds letters) :: (← terms? rest)
  | .joint j :: .digits ds :: rest => do return (j, ← amount? ds ['s']) :: (← terms? rest)
  | .digits ds :: .word letters :: rest => do
    return (.sum, ← amount? ds letters) :: (← terms? rest)
  | .digits ds :: rest => do return (.sum, ← amount? ds ['s']) :: (← terms? rest)
  | _ => none

/-- Put two amounts together. A product of seconds is one of nanoseconds again. -/
def combine : Joint → Nat → Nat → Nat
  | .sum, a, b => a + b
  | .product, a, b => a * b / second

/-- Put further amounts to one, all with the same sign. -/
def total? (start : Nat) (terms : List (Joint × Nat)) : Option Nat :=
  match terms with
  | [] => some start
  | (j, _) :: _ =>
    if terms.all fun t => t.1 = j then
      terms.foldlM (fun n t => fitting? (combine j n t.2)) start
    else none

/-- Nanoseconds, read from an expression that starts with an amount. -/
def ofText? (s : String) : Option Nat := do
  let tokens ← tokens? s.toList
  match tokens, ← terms? tokens with
  | .digits _ :: _, (_, start) :: terms => total? start terms
  | _, _ => none

/-- Read a duration, which is a text. -/
def ofJson? (v : Json) : Option Nat := v.string?.bind ofText?

end Switchboard.Duration
