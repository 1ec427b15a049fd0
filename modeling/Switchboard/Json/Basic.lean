import Switchboard.Number.Binary

/-!
# JSON values

The one dynamic value of the library. Whole numbers that fit 64 bits stay whole, every
other number is a binary number of 64 bits. An object is the list of its members in
the order they were written, repeated keys included; `Json.sorted` is the form in which
free values are kept, with the members of every object in key order and the last of
equal keys.
-/

namespace Switchboard

/-- A number: whole, or binary. -/
inductive JsonNumber where
  | whole (value : Int)
  | binary (value : Binary)
  deriving DecidableEq, Repr

/-- A value. Keys may repeat among the members of an object. -/
inductive Json where
  | null
  | bool (value : Bool)
  | number (value : JsonNumber)
  | string (value : String)
  | array (items : List Json)
  | object (members : List (String × Json))
  deriving Repr, Inhabited

/-! ## Equality -/

mutual

/-- Whether two values are equal. -/
def Json.decEq : (a b : Json) → Decidable (a = b)
  | .null, .null => isTrue rfl
  | .bool a, .bool b => decidable_of_iff (a = b) (by simp)
  | .number a, .number b => decidable_of_iff (a = b) (by simp)
  | .string a, .string b => decidable_of_iff (a = b) (by simp)
  | .array a, .array b =>
    match Json.decEqItems a b with
    | isTrue h => isTrue (by rw [h])
    | isFalse h => isFalse fun e => h (by injection e)
  | .object a, .object b =>
    match Json.decEqMembers a b with
    | isTrue h => isTrue (by rw [h])
    | isFalse h => isFalse fun e => h (by injection e)
  | .null, .bool _ | .null, .number _ | .null, .string _
  | .null, .array _ | .null, .object _ => isFalse nofun
  | .bool _, .null | .bool _, .number _ | .bool _, .string _
  | .bool _, .array _ | .bool _, .object _ => isFalse nofun
  | .number _, .null | .number _, .bool _ | .number _, .string _
  | .number _, .array _ | .number _, .object _ => isFalse nofun
  | .string _, .null | .string _, .bool _ | .string _, .number _
  | .string _, .array _ | .string _, .object _ => isFalse nofun
  | .array _, .null | .array _, .bool _ | .array _, .number _
  | .array _, .string _ | .array _, .object _ => isFalse nofun
  | .object _, .null | .object _, .bool _ | .object _, .number _
  | .object _, .string _ | .object _, .array _ => isFalse nofun

/-- Whether two lists of values are equal. -/
def Json.decEqItems : (a b : List Json) → Decidable (a = b)
  | [], [] => isTrue rfl
  | [], _ :: _ | _ :: _, [] => isFalse nofun
  | x :: xs, y :: ys =>
    match Json.decEq x y, Json.decEqItems xs ys with
    | isTrue h, isTrue hs => isTrue (by rw [h, hs])
    | isFalse h, _ => isFalse fun e => h (by injection e)
    | _, isFalse h => isFalse fun e => h (by injection e)

/-- Whether two lists of members are equal. -/
def Json.decEqMembers : (a b : List (String × Json)) → Decidable (a = b)
  | [], [] => isTrue rfl
  | [], _ :: _ | _ :: _, [] => isFalse nofun
  | (k, x) :: xs, (l, y) :: ys =>
    match instDecidableEqString k l, Json.decEq x y, Json.decEqMembers xs ys with
    | isTrue hk, isTrue h, isTrue hs => isTrue (by rw [hk, h, hs])
    | isFalse h, _, _ => isFalse fun e => h (by injection e with e _; injection e)
    | _, isFalse h, _ => isFalse fun e => h (by injection e with e _; injection e)
    | _, _, isFalse h => isFalse fun e => h (by injection e)

end

instance : DecidableEq Json := Json.decEq

/-- Put a member into members sorted by key, over an equal key. -/
def insertMember {α : Type} (key : String) (value : α) :
    List (String × α) → List (String × α)
  | [] => [(key, value)]
  | (k, v) :: rest =>
    if key = k then (key, value) :: rest
    else if key < k then (key, value) :: (k, v) :: rest
    else (k, v) :: insertMember key value rest

/-- Members in key order, the last of equal keys. -/
def sortMembers {α : Type} (members : List (String × α)) : List (String × α) :=
  members.foldl (fun sorted m => insertMember m.1 m.2 sorted) []

namespace Json

/-- The number `n`, whole. -/
def nat (n : Nat) : Json := .number (.whole n)

/-- The number `i`, whole. -/
def int (i : Int) : Json := .number (.whole i)

mutual

/-- The members of every object in key order, the last of equal keys. -/
def sorted : Json → Json
  | .array items => .array (sortedItems items)
  | .object members => .object (sortMembers (sortedMembers members))
  | other => other

/-- The items of an array, each with its objects in key order. -/
def sortedItems : List Json → List Json
  | [] => []
  | item :: rest => item.sorted :: sortedItems rest

/-- The members of an object, each with its objects in key order. -/
def sortedMembers : List (String × Json) → List (String × Json)
  | [] => []
  | (key, value) :: rest => (key, value.sorted) :: sortedMembers rest

end

/-- The value of the first member called `key`. -/
def get? (key : String) : Json → Option Json
  | .object members => members.lookup key
  | _ => none

/-- The item at a place of an array. -/
def item? (i : Nat) : Json → Option Json
  | .array items => items[i]?
  | _ => none

/-- The text that a value is. -/
def string? : Json → Option String
  | .string s => some s
  | _ => none

/-- The truth value that a value is. -/
def bool? : Json → Option Bool
  | .bool b => some b
  | _ => none

/-- The items of an array. -/
def array? : Json → Option (List Json)
  | .array items => some items
  | _ => none

/-- The members of an object. -/
def object? : Json → Option (List (String × Json))
  | .object members => some members
  | _ => none

/-- Whether the value is null. -/
def isNull : Json → Bool
  | .null => true
  | _ => false

/-- Whether the value is an object or an array that holds nothing. -/
def isEmpty : Json → Bool
  | .array [] | .object [] => true
  | _ => false

/-- Whether the value is an object. -/
def isObject : Json → Bool
  | .object _ => true
  | _ => false

/-- A whole number from zero to `bound`. -/
def natUpTo? (bound : Nat) : Json → Option Nat
  | .number (.whole (.ofNat n)) => if n ≤ bound then some n else none
  | _ => none

/-- The string member called `key`, or the empty text. -/
def text (key : String) (value : Json) : String :=
  ((value.get? key).bind string?).getD ""

/-- Values that can be read from JSON and written to it. -/
class Codec (α : Type) where
  read? : Json → Option α
  write : α → Json

end Json

end Switchboard
