import Switchboard.Json.Basic

/-!
# Shapes of values

A shape says which parts of a value a reader keeps. Of a record it keeps the members it
knows; what it does not know it skips.
-/

namespace Switchboard.Json

/-- What a reader keeps of a value : all of it, nothing, or some of its items or members. -/
inductive Shape where
  | whole
  | skipped
  | list (item : Shape)
  | record (fields : List (String × Shape))
  deriving Repr, Inhabited

namespace Shape

/-- Whether nothing is kept. -/
def isSkipped : Shape → Bool
  | skipped => true
  | _ => false

/-- The shape of the item at a place of an array. A record may be written as one. -/
def itemAt (i : Nat) : Shape → Shape
  | whole => whole
  | skipped => skipped
  | list item => item
  | record fields => (fields[i]?.map (·.2)).getD whole

/-- The shape of the member with a key. -/
def member (key : String) : Shape → Shape
  | skipped => skipped
  | record fields => (fields.lookup key).getD skipped
  | whole | list _ => whole

/-- A record with the given fields, each of them kept whole unless `shaped` gives its
shape. -/
def ofFields (names : List String) (shaped : List (String × Shape)) : Shape :=
  record (names.map fun name => (name, (shaped.lookup name).getD whole))

end Shape

end Switchboard.Json
