import Switchboard.Json.Numeral
import Switchboard.Text.Hexadecimal

/-!
# Socket addresses

An address is four octets, or eight groups in brackets, and the number of a service.
Groups are written in lower case with the longest run of zeros left out, the first of
equally long ones; addresses that embed four octets show them.
-/

namespace Switchboard

/-- An address, as four octets or as eight groups of 16 bits. -/
inductive IpAddress where
  | octets (a b c d : Nat)
  | groups (gs : List Nat)
  deriving DecidableEq, Repr

/-- An address with the number of a service. Only groups have a scope, zero for none. -/
structure SocketAddress where
  ip : IpAddress
  scope : Nat
  service : Nat
  deriving DecidableEq, Repr

namespace SocketAddress

/-- A number of at most `bound` at the front, and what follows it. Without `padded`, a
number of several digits does not start with zero. -/
def number? (bound : Nat) (padded : Bool) (cs : List Char) : Option (Nat × List Char) :=
  match Numeral.digits cs with
  | ([], _) => none
  | (d :: ds, rest) =>
    let n := Numeral.decimalValue (d :: ds)
    if bound < n || (!padded && d == 0 && !ds.isEmpty) then none else some (n, rest)

/-- Drop a character at the front. -/
def char? (c : Char) : List Char → Option (List Char)
  | d :: rest => if d = c then some rest else none
  | [] => none

/-- Four octets with points between them. -/
def octets? (cs : List Char) : Option ((Nat × Nat × Nat × Nat) × List Char) := do
  let (a, cs) ← number? 255 false cs
  let (b, cs) ← number? 255 false (← char? '.' cs)
  let (c, cs) ← number? 255 false (← char? '.' cs)
  let (d, cs) ← number? 255 false (← char? '.' cs)
  return ((a, b, c, d), cs)

/-- One to four hexadecimal digits at the front. -/
def group? (cs : List Char) : Option (Nat × List Char) :=
  let ds := cs.takeWhile fun c => (Text.hexDigit? c).isSome
  if ds.isEmpty || 4 < ds.length then none
  else some (ds.foldl (fun n c => n * 16 + (Text.hexDigit? c).getD 0) 0, cs.drop ds.length)

/-- Groups that were read, and whether the last two were written as four octets. -/
structure Groups where
  values : List Nat
  embedded : Bool
  deriving DecidableEq, Repr

/-- At most `limit` groups with colons between them; four octets count as two groups and
come last. -/
def groupsFrom : Nat → Bool → List Char → Groups × List Char
  | 0, _, cs => (⟨[], false⟩, cs)
  | limit + 1, first, cs =>
    match (if first then some cs else char? ':' cs) with
    | none => (⟨[], false⟩, cs)
    | some inner =>
      match (if 1 ≤ limit then octets? inner else none) with
      | some ((a, b, c, d), rest) => (⟨[a * 256 + b, c * 256 + d], true⟩, rest)
      | none =>
        match group? inner with
        | none => (⟨[], false⟩, cs)
        | some (g, rest) =>
          let (gs, rest) := groupsFrom limit false rest
          ({ gs with values := g :: gs.values }, rest)

/-- Eight groups, a run of zeros written as two colons. Four octets do not stand before
the two colons. -/
def groups? (cs : List Char) : Option (List Nat × List Char) :=
  let (head, rest) := groupsFrom 8 true cs
  if head.values.length = 8 then some (head.values, rest)
  else if head.embedded then none
  else do
    let rest ← char? ':' (← char? ':' rest)
    let (tail, rest) := groupsFrom (8 - (head.values.length + 1)) true rest
    let zeros := 8 - head.values.length - tail.values.length
    return (head.values ++ List.replicate zeros 0 ++ tail.values, rest)

/-- The number of a service behind a colon, up to the end. -/
def service? (cs : List Char) : Option Nat := do
  let (service, rest) ← number? 65535 true (← char? ':' cs)
  if rest.isEmpty then some service else none

/-- Read an address. Groups stand in brackets, and a scope behind them. -/
def ofText? (s : String) : Option SocketAddress :=
  match s.toList with
  | '[' :: cs => do
    let (gs, cs) ← groups? cs
    let (scope, cs) ← match cs with
      | '%' :: r => number? 4294967295 true r
      | r => some (0, r)
    return ⟨.groups gs, scope, ← service? (← char? ']' cs)⟩
  | cs => do
    let ((a, b, c, d), cs) ← octets? cs
    return ⟨.octets a b c d, 0, ← service? cs⟩

/-! ## Writing -/

/-- The place and the length of the first of the longest runs of zeros. -/
def longestZeros (gs : List Nat) : Nat × Nat :=
  ((List.range gs.length).map fun i => (i, ((gs.drop i).takeWhile (· == 0)).length)).foldl
    (fun best run => if best.2 < run.2 then run else best) (0, 0)

/-- Groups with colons between them. -/
def joinGroups (gs : List Nat) : String := ":".intercalate (gs.map Text.hexDigits)

/-- Octets with points between them. -/
def octetsText (a b c d : Nat) : String := ".".intercalate ([a, b, c, d].map toString)

/-- An address as a text. A single zero is not left out. -/
def ipText : IpAddress → String
  | .octets a b c d => octetsText a b c d
  | .groups [0, 0, 0, 0, 0, 0xffff, g, h] =>
    "::ffff:" ++ octetsText (g / 256) (g % 256) (h / 256) (h % 256)
  | .groups gs =>
    let (start, length) := longestZeros gs
    if length < 2 then joinGroups gs
    else joinGroups (gs.take start) ++ "::" ++ joinGroups (gs.drop (start + length))

/-- An address with the number of its service, as a text. -/
def toText (a : SocketAddress) : String :=
  match a.ip with
  | .octets .. => ipText a.ip ++ ":" ++ toString a.service
  | .groups _ =>
    "[" ++ ipText a.ip ++ (if a.scope = 0 then "" else "%" ++ toString a.scope) ++ "]:" ++
      toString a.service

end SocketAddress

end Switchboard
