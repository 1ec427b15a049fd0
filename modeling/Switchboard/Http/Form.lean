import Switchboard.Text.Hexadecimal
import Switchboard.Text.Search
import Switchboard.Text.Utf8

/-!
# Encoded addresses

In paths and queries a byte may be written as a percent sign and two hexadecimal digits.
A query is a list of keys with values, in which a plus sign stands for a space.
-/

namespace Switchboard.Http

/-- The bytes of a text in which bytes may be written in hexadecimal. A percent sign
without two digits stands for itself. -/
def percentDecode : List Char → List UInt8
  | [] => []
  | '%' :: a :: b :: rest =>
    match Text.hexDigit? a, Text.hexDigit? b with
    | some x, some y => UInt8.ofNat (16 * x + y) :: percentDecode rest
    | _, _ => UInt8.ofNat '%'.toNat :: percentDecode (a :: b :: rest)
  | c :: rest => (String.singleton c).toUTF8.data.toList ++ percentDecode rest
termination_by cs => cs.length

/-- A key or a value of a query. -/
def formText (s : String) : String :=
  Text.Utf8.tolerant (percentDecode (s.toList.map fun c => if c = '+' then ' ' else c))

/-- The keys and the values of a query, in order. -/
def formPairs (query : String) : List (String × String) :=
  ((Text.split '&' query).filter fun s => !s.isEmpty).map fun s =>
    let key := s.toList.takeWhile (· ≠ '=')
    (formText (String.ofList key), formText (String.ofList (s.toList.drop (key.length + 1))))

end Switchboard.Http
