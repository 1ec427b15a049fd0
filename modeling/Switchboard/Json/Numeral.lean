import Switchboard.Number.Shortest
import Switchboard.Json.Basic

/-!
# Written numbers

A numeral is an optional sign, a whole part without leading zeros, an optional
fraction and an optional exponent. Its significand holds as many digits as fit 64 bits;
without fraction and exponent it is whole if it fits, and otherwise it is scaled by a
power of ten. Binary numbers are written with the fewest digits that read back, in
positional notation from `1e-5` up to below `1e16`.
-/

namespace Switchboard.Numeral

/-- The largest significand. -/
def significandLimit : Nat := Nat.pow 2 64 - 1

/-- The value of a decimal digit. -/
def digit? (c : Char) : Option Nat :=
  if c.isDigit then some (c.toNat - '0'.toNat) else none

/-- The digits at the front, and what follows them. -/
def digits : List Char → List Nat × List Char
  | [] => ([], [])
  | c :: rest =>
    match digit? c with
    | some d => let (ds, rest) := digits rest; (d :: ds, rest)
    | none => ([], c :: rest)

/-- Append digits to a significand while it fits; the digits left over are those from
the first that does not. -/
def extend (significand : Nat) : List Nat → Nat × List Nat
  | [] => (significand, [])
  | d :: ds =>
    if significand * 10 + d ≤ significandLimit then extend (significand * 10 + d) ds
    else (significand, d :: ds)

/-- The parts of a numeral: its sign, the digits of the whole part and of the fraction,
and the exponent. An absent part is nothing. -/
structure Parts where
  negative : Bool
  whole : List Nat
  fraction : Option (List Nat)
  exponent : Option Int
  deriving DecidableEq, Repr

/-- The number that decimal digits stand for. -/
def decimalValue (ds : List Nat) : Nat := ds.foldl (fun n d => n * 10 + d) 0

/-- What stands behind the significand: nothing, or an exponent. -/
def exponentPart : List Char → Option (Option Int)
  | [] => some none
  | c :: rest =>
    if c = 'e' ∨ c = 'E' then
      let (negative, rest) := match rest with
        | '+' :: r => (false, r)
        | '-' :: r => (true, r)
        | r => (false, r)
      match digits rest with
      | (d :: ds, []) =>
        let n : Int := decimalValue (d :: ds)
        some (some (if negative then -n else n))
      | _ => none
    else none

/-- Split a numeral into its parts. -/
def parts? (cs : List Char) : Option Parts := do
  let (negative, cs) := match cs with
    | '-' :: r => (true, r)
    | r => (false, r)
  let (whole, cs) := digits cs
  match whole with
  | [] => none
  | 0 :: _ :: _ => none
  | _ =>
    match cs with
    | '.' :: r =>
      let (fraction, r) := digits r
      if fraction.isEmpty then none
      else
        let e ← exponentPart r
        return ⟨negative, whole, some fraction, e⟩
    | r =>
      let e ← exponentPart r
      return ⟨negative, whole, none, e⟩

/-- The powers of ten that are numbers of 64 bits, rounded. -/
def powerOfTen (n : Nat) : Option Binary :=
  if n ≤ 308 then BinaryFormat.double.round false (Nat.pow 10 n) 1 else none

/-- Multiply by a power of ten in steps of at most `10 ^ 308`, each step rounded.
Nothing if the number grows too large. -/
def scale (fuel : Nat) (x : Binary) (e : Int) : Option Binary :=
  match powerOfTen e.natAbs with
  | some p => if 0 ≤ e then x.mul .double p else x.div .double p
  | none =>
    if x.mantissa = 0 then some x
    else if 0 ≤ e then none
    else
      match fuel, powerOfTen 308 with
      | fuel + 1, some p => (x.div .double p).bind fun y => scale fuel y (e + 308)
      | _, _ => some ⟨x.negative, 0, BinaryFormat.double.minExponent⟩

/-- The number with the given significand and power of ten. Four steps bring every
significand below the least number. -/
def scaled (negative : Bool) (significand : Nat) (e : Int) : Option Binary := do
  let x ← BinaryFormat.double.round false significand 1
  let y ← scale 4 x e
  return { y with negative := negative }

/-- The whole number that a numeral without fraction and exponent stands for, if 64 bits
hold it; a zero with a sign is not whole. -/
def Parts.whole? (p : Parts) : Option Int :=
  let (n, left) := extend 0 p.whole
  if p.fraction.isSome || p.exponent.isSome || !left.isEmpty then none
  else if !p.negative then some n
  else if n = 0 ∨ Nat.pow 2 63 < n then none
  else some (-n)

/-- The value of a numeral; nothing if it is too large for 64 bits. -/
def Parts.value (p : Parts) : Option JsonNumber :=
  match p.whole? with
  | some i => some (.whole i)
  | none =>
    let (significand, left) := extend 0 p.whole
    let ds := p.fraction.getD []
    let (significand, cut) := extend significand ds
    let e : Int := left.length - ((ds.length - cut.length : Nat) : Int) + p.exponent.getD 0
    (scaled p.negative significand e).map .binary

/-- The value of a numeral, all its digits rounded at once; nothing if it is too large for
64 bits. Beyond 400 orders of magnitude it is too large or zero. -/
def Parts.nearest (p : Parts) : Option JsonNumber :=
  match p.whole? with
  | some i => some (.whole i)
  | none =>
    let ds := p.fraction.getD []
    let n := decimalValue (p.whole ++ ds)
    let e : Int := p.exponent.getD 0 - ds.length
    let order : Int := e + p.whole.length + ds.length
    let zero : Binary := ⟨p.negative, 0, BinaryFormat.double.minExponent⟩
    if n = 0 ∨ order < -400 then some (.binary zero)
    else if 400 < e then none
    else
      let (num, den) := scaleByTen n 1 e
      (BinaryFormat.double.round p.negative num den).map .binary

/-- Read a numeral. -/
def read (cs : List Char) : Option JsonNumber :=
  (parts? cs).bind Parts.value

/-! ## Writing -/

/-- The decimal digits of a number. -/
def writeNat (n : Nat) : List Char := Nat.toDigits 10 n

/-- The digits of a whole number, behind its sign. -/
def writeInt : Int → List Char
  | .ofNat n => writeNat n
  | .negSucc n => '-' :: writeNat (n + 1)

/-- Which orders of magnitude are written without an exponent. -/
structure PositionalRange where
  least : Int
  greatest : Int
  deriving DecidableEq, Repr

/-- From `1e-5` up to below `1e16`. -/
def positional : PositionalRange := ⟨-5, 15⟩

/-- A decimal, with a point or an exponent in it. -/
def writeDecimal (range : PositionalRange) (d : Decimal) : List Char :=
  let ds := writeNat d.digits
  let order : Int := d.exponent + ds.length - 1
  if range.least ≤ order ∧ order ≤ range.greatest then
    if 0 ≤ d.exponent then ds ++ List.replicate d.exponent.toNat '0' ++ ['.', '0']
    else if 0 ≤ order then
      ds.take (order.toNat + 1) ++ ['.'] ++ ds.drop (order.toNat + 1)
    else ['0', '.'] ++ List.replicate (-order - 1).toNat '0' ++ ds
  else
    let mantissa := match ds with
      | [] => []
      | [c] => [c]
      | c :: r => c :: '.' :: r
    mantissa ++ ['e', if order < 0 then '-' else '+'] ++ writeNat order.natAbs

/-- A binary number with the fewest digits that read back. -/
def writeBinary (fmt : BinaryFormat) (x : Binary) : List Char :=
  let sign := if x.negative then ['-'] else []
  if x.mantissa = 0 then sign ++ ['0', '.', '0']
  else sign ++ writeDecimal positional (x.shortest fmt)

/-- The digits of a number. -/
def write : JsonNumber → List Char
  | .whole i => writeInt i
  | .binary x => writeBinary .double x

end Switchboard.Numeral
