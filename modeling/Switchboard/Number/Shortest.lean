import Switchboard.Number.Binary

/-!
# The shortest decimal of a binary number

Every real number strictly between the two midpoints around a binary number is read
back as that number, and so are the midpoints when the mantissa is even. `shortest`
looks on coarser to finer decimal grids for the first one with a point in that
interval, and takes of two such points the nearer one, a tie going to the even digit.
A point of a grid lies in the interval only if one of the two neighbours of the number
on that grid does, so two candidates per grid are enough.
-/

namespace Switchboard

/-- The number `digits * 10 ^ exponent`. -/
structure Decimal where
  digits : Nat
  exponent : Int
  deriving DecidableEq, Repr

namespace Binary

/-- Four times the magnitude and the two midpoints around it, as multiples of
`2 ^ (exponent - 2)`. Below a power of two the neighbours are closer. -/
def quarters (fmt : BinaryFormat) (x : Binary) : Nat × Nat × Nat :=
  let below :=
    if x.mantissa = Nat.pow 2 (fmt.precision - 1) ∧ fmt.minExponent < x.exponent then 1 else 2
  (4 * x.mantissa - below, 4 * x.mantissa, 4 * x.mantissa + 2)

/-- Whether `c * 10 ^ k` is read back as `x`. -/
def readsBack (fmt : BinaryFormat) (x : Binary) (c : Nat) (k : Int) : Bool :=
  let (low, _, high) := x.quarters fmt
  let (cn, cd) := scaleByTen c 1 k
  let (pn, pd) := scaleByTwo 1 1 (x.exponent - 2)
  let point := cn * pd
  let low := low * pn * cd
  let high := high * pn * cd
  if x.mantissa % 2 = 0 then low ≤ point && point ≤ high
  else low < point && point < high

/-- The better of the two neighbours of `x` on the grid `10 ^ k`, if one reads back. -/
def onGrid (fmt : BinaryFormat) (x : Binary) (k : Int) : Option Nat :=
  let (n, d) := scaleByTen x.magnitude.1 x.magnitude.2 (-k)
  let c := n / d
  let r := n % d
  match x.readsBack fmt c k, x.readsBack fmt (c + 1) k with
  | true, false => some c
  | false, true => some (c + 1)
  | false, false => none
  | true, true =>
    if 2 * r < d then some c
    else if d < 2 * r then some (c + 1)
    else if c % 2 = 0 then some c else some (c + 1)

/-- The first of `steps` grids from `10 ^ k` downwards with a point that reads back. -/
def searchGrids (fmt : BinaryFormat) (x : Binary) : Nat → Int → Option Decimal
  | 0, _ => none
  | steps + 1, k =>
    match x.onGrid fmt k with
    | some c => some ⟨c, k⟩
    | none => searchGrids fmt x steps (k - 1)

/-- An exponent of ten above the magnitude, by at most two. -/
def decimalExponent (x : Binary) : Int :=
  ((x.mantissa.log2 : Int) + 1 + x.exponent) * 30103 / 100000 + 1

/-- The decimal with the fewest digits that is read back as `x`, and of those the
nearest. Twenty grids are enough for seventeen digits; zero has the digit zero. -/
def shortest (fmt : BinaryFormat) (x : Binary) : Decimal :=
  (x.searchGrids fmt 20 x.decimalExponent).getD ⟨0, 0⟩

end Binary

end Switchboard
