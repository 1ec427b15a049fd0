import Switchboard.Json.Basic
import Switchboard.Json.Numeral

/-!
# Records and choices in JSON

A record is an object in which some keys are known: unknown members are ignored and a
known key must not repeat. A record may also be written as an array, its fields in
order. A field is required, optional (absent or null) or has a default (absent, but not
null).

A choice between forms is written as a name, or as an object that names the form in a
tag member beside the fields of the form. As an array, the tag comes first.
-/

namespace Switchboard.Json

/-- The known fields of a value, and whether they were written in order without keys. -/
structure Record where
  fields : List (String × Json)
  inOrder : Bool
  deriving Repr

/-- Whether no key occurs twice. -/
def distinctKeys {α : Type} : List (String × α) → Bool
  | [] => true
  | (k, _) :: rest => !(rest.any fun m => m.1 == k) && distinctKeys rest

/-- The value as a record with the given fields. -/
def record? (names : List String) : Json → Option Record
  | .object members =>
    let known := members.filter fun m => names.contains m.1
    if distinctKeys known then some ⟨known, false⟩ else none
  | .array items =>
    if items.length ≤ names.length then some ⟨names.zip items, true⟩ else none
  | _ => none

/-- The value as a record with the given fields, written with keys, and the members
with other keys. -/
def openRecord? (names : List String) : Json → Option (Record × List (String × Json))
  | .object members => do
    let r ← record? names (.object members)
    let others := members.filter fun m => !names.contains m.1
    return (r, sortMembers (others.map fun m => (m.1, m.2.sorted)))
  | _ => none

/-- The value as a record that admits no other fields. -/
def closedRecord? (names : List String) (v : Json) : Option Record :=
  match v with
  | .object members =>
    if members.all fun m => names.contains m.1 then record? names v else none
  | _ => record? names v

namespace Record

variable {α : Type}

/-- The value of a field, if it is there. -/
def get? (r : Record) (name : String) : Option Json := r.fields.lookup name

/-- A field that must be there. -/
def required (r : Record) (name : String) (read : Json → Option α) : Option α :=
  (r.get? name).bind read

/-- A field that may be absent or null. -/
def optional (r : Record) (name : String) (read : Json → Option α) : Option (Option α) :=
  match r.get? name with
  | none => some none
  | some .null => some none
  | some v => (read v).map some

/-- A field that may be null, and absent only where fields have keys. -/
def nullable (r : Record) (name : String) (read : Json → Option α) : Option (Option α) :=
  match r.get? name with
  | none => if r.inOrder then none else some none
  | some .null => some none
  | some v => (read v).map some

/-- A field that may be absent. -/
def orDefault (r : Record) (name : String) (default : α) (read : Json → Option α) : Option α :=
  match r.get? name with
  | none => some default
  | some v => read v

end Record

/-! ## Fields -/

/-- Read each item of a list. -/
def listOf? {α : Type} (read : Json → Option α) : Json → Option (List α)
  | .array items => items.mapM read
  | _ => none

/-- A free value, kept with its members in key order. -/
def free? (v : Json) : Option Json := some v.sorted

/-- The greatest number of 32 bits. -/
def u32Max : Nat := 4294967295

/-- The greatest number of 64 bits. -/
def u64Max : Nat := 18446744073709551615

/-- A number that has 32 bits and no sign. -/
def u32? : Json → Option Nat := natUpTo? u32Max

/-- A number that has 64 bits and no sign. -/
def u64? : Json → Option Nat := natUpTo? u64Max

/-- A number of 32 bits; nothing stands for one beyond their range. -/
abbrev Real32 := Option Binary

/-- A number, rounded to 32 bits. -/
def real32? : Json → Option Real32
  | .number (.whole i) => some (BinaryFormat.single.round (i < 0) i.natAbs 1)
  | .number (.binary x) => some (x.convert .single)
  | _ => none

/-- One of the given names; also written as an object with the name as its key and a
value that counts as nothing. -/
def name? (isNothing : Json → Bool) (names : List String) : Json → Option String
  | .string s => if names.contains s then some s else none
  | .object [(key, v)] => if isNothing v && names.contains key then some key else none
  | _ => none

/-- The form that a tag names. Where values are read twice, the tag may also be the
place of the form in the list of forms. -/
def form? (forms : List String) (byPlace : Bool) : Json → Option String
  | .string s => if forms.contains s then some s else none
  | .number (.whole (.ofNat n)) => if byPlace then forms[n]? else none
  | _ => none

/-- The form of a tagged value, and the value without its tag. -/
def tagged? (tag : String) (forms : List String) (byPlace : Bool) :
    Json → Option (String × Json)
  | .object members => do
    let (tags, rest) := members.partition fun m => m.1 == tag
    match tags with
    | [(_, v)] => return (← form? forms byPlace v, .object rest)
    | _ => none
  | .array (v :: rest) => do return (← form? forms byPlace v, .array rest)
  | _ => none

/-- What is left of a form without fields: members are ignored, items are not admitted. -/
def noFields? : Json → Option Unit
  | .object _ | .array [] => some ()
  | _ => none

/-! ## Writing -/

/-- An object of the members that are there. -/
def ofFields (fields : List (Option (String × Json))) : Json :=
  .object (fields.filterMap id)

/-- A member that is always written. -/
def field (name : String) (value : Json) : Option (String × Json) := some (name, value)

/-- A member that is written if it is there. -/
def fieldIf {α : Type} (name : String) (write : α → Json) (value : Option α) :
    Option (String × Json) := value.map fun v => (name, write v)

/-- The value, or null. -/
def orNull {α : Type} (write : α → Json) : Option α → Json
  | some v => write v
  | none => .null

/-- A list, item by item. -/
def ofList {α : Type} (write : α → Json) (items : List α) : Json := .array (items.map write)

/-- A number of 32 bits as the number of 64 bits that has the same shortest digits. -/
def ofReal32 : Real32 → Json
  | none => .null
  | some x =>
    if x.mantissa = 0 then .number (.binary ⟨x.negative, 0, BinaryFormat.double.minExponent⟩)
    else
      let d := x.shortest .single
      let (n, m) := scaleByTen d.digits 1 d.exponent
      match BinaryFormat.double.round x.negative n m with
      | some y => .number (.binary y)
      | none => .null

/-- A number of 32 bits as the number of 64 bits of the same value. -/
def widenReal32 : Real32 → Json
  | none => .null
  | some x =>
    match x.convert .double with
    | some y => .number (.binary y)
    | none => .null

end Switchboard.Json
