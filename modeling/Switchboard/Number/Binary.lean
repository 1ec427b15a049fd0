/-!
# Binary floating-point numbers

A finite binary number is a sign, a whole mantissa and a power of two, so every
operation on it is arithmetic on `Nat` and `Int`. `BinaryFormat.round` takes the
quotient of two naturals to the nearest number of a format, a tie to the even
mantissa. A number has one representation per format: zero and the numbers too small
for a full mantissa carry the least exponent, every other mantissa is full.
-/

namespace Switchboard

/-- A binary format: the bits of a mantissa, and the exponents of the smallest and of
the largest unit in the last place. -/
structure BinaryFormat where
  precision : Nat
  minExponent : Int
  maxExponent : Int
  deriving DecidableEq, Repr

/-- Numbers of 32 bits. -/
def BinaryFormat.single : BinaryFormat := ⟨24, -149, 104⟩

/-- Numbers of 64 bits. -/
def BinaryFormat.double : BinaryFormat := ⟨53, -1074, 971⟩

/-- The number `± mantissa * 2 ^ exponent`. -/
structure Binary where
  negative : Bool
  mantissa : Nat
  exponent : Int
  deriving DecidableEq, Repr

/-- The numerator and the denominator of `num / den * 2 ^ e`. -/
def scaleByTwo (num den : Nat) (e : Int) : Nat × Nat :=
  (num * Nat.pow 2 e.toNat, den * Nat.pow 2 (-e).toNat)

/-- The numerator and the denominator of `num / den * 10 ^ e`. -/
def scaleByTen (num den : Nat) (e : Int) : Nat × Nat :=
  (num * Nat.pow 10 e.toNat, den * Nat.pow 10 (-e).toNat)

/-- The whole number nearest to `num / den`, a half going to the even neighbour. -/
def roundHalfEven (num den : Nat) : Nat :=
  let q := num / den
  let r := num % den
  if 2 * r < den then q
  else if den < 2 * r then q + 1
  else if q % 2 = 0 then q else q + 1

/-- The exponent of the last place in which `num / den` has a full mantissa, or the
least exponent of the format. -/
def BinaryFormat.exponentOf (fmt : BinaryFormat) (num den : Nat) : Int :=
  let e := max ((num.log2 : Int) - den.log2 - (fmt.precision - 1)) fmt.minExponent
  let (n, d) := scaleByTwo num den (-e)
  if n / d < Nat.pow 2 (fmt.precision - 1) ∧ fmt.minExponent < e then e - 1 else e

/-- The number of the format nearest to `± num / den`; nothing if it is too large. -/
def BinaryFormat.round (fmt : BinaryFormat) (negative : Bool) (num den : Nat) : Option Binary :=
  if num = 0 then some ⟨negative, 0, fmt.minExponent⟩
  else
    let e := fmt.exponentOf num den
    let (n, d) := scaleByTwo num den (-e)
    let m := roundHalfEven n d
    let (m, e) :=
      if m = Nat.pow 2 fmt.precision then (Nat.pow 2 (fmt.precision - 1), e + 1) else (m, e)
    if fmt.maxExponent < e then none else some ⟨negative, m, e⟩

namespace Binary

/-- The magnitude as a quotient of naturals. -/
def magnitude (x : Binary) : Nat × Nat := scaleByTwo x.mantissa 1 x.exponent

/-- The nearest number of another format; nothing if it is too large. -/
def convert (fmt : BinaryFormat) (x : Binary) : Option Binary :=
  fmt.round x.negative x.magnitude.1 x.magnitude.2

/-- The rounded product of two numbers. -/
def mul (fmt : BinaryFormat) (x y : Binary) : Option Binary :=
  fmt.round (x.negative != y.negative) (x.magnitude.1 * y.magnitude.1)
    (x.magnitude.2 * y.magnitude.2)

/-- The rounded quotient by a number other than zero. -/
def div (fmt : BinaryFormat) (x y : Binary) : Option Binary :=
  fmt.round (x.negative != y.negative) (x.magnitude.1 * y.magnitude.2)
    (x.magnitude.2 * y.magnitude.1)

end Binary

end Switchboard
