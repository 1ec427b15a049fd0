/-!
# Hexadecimal digits

Digits are read in either case and written in lower case.
-/

namespace Switchboard.Text

/-- The value of a digit. -/
def hexDigit? (c : Char) : Option Nat :=
  if c.isDigit then some (c.toNat - '0'.toNat)
  else if 'a' ≤ c ∧ c ≤ 'f' then some (c.toNat - 'a'.toNat + 10)
  else if 'A' ≤ c ∧ c ≤ 'F' then some (c.toNat - 'A'.toNat + 10)
  else none

/-- The digits of a number. -/
def hexDigits (n : Nat) : String := String.ofList (Nat.toDigits 16 n)

/-- A digit that is written is read back. -/
theorem hexDigit?_digitChar {n : Nat} (h : n < 16) : hexDigit? n.digitChar = some n :=
  have all : ∀ d : Fin 16, hexDigit? d.val.digitChar = some d.val := by decide
  all ⟨n, h⟩

end Switchboard.Text
