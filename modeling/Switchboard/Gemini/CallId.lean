/-!
# Ids of Gemini's function calls

Gemini's function calls carry no id. An id is made of the function's name and the
position of the call, and the name is read back from it.
-/

namespace Switchboard.Gemini

/-- The id of the call of `name` at a position. -/
def callId (name : String) (position : Nat) : String :=
  "call_" ++ name ++ "_" ++ toString position

/-- The part before the last underscore and the part after it. -/
def splitLastUnderscore (cs : List Char) : Option (List Char × List Char) :=
  let back := cs.reverse
  let last := back.takeWhile (· != '_')
  match back.dropWhile (· != '_') with
  | _ :: first => some (first.reverse, last.reverse)
  | [] => none

/-- The name in an id: what is left of the position and of the mark in front. -/
def functionName (id : String) : String :=
  let cs := id.toList
  let name := if "call_".toList.isPrefixOf cs then cs.drop 5 else cs
  match splitLastUnderscore name with
  | some (first, position) =>
    if !first.isEmpty && position.all Char.isDigit then String.ofList first else String.ofList name
  | none => String.ofList name

theorem splitLastUnderscore_append {ds : List Char} (h : '_' ∉ ds) (cs : List Char) :
    splitLastUnderscore (cs ++ '_' :: ds) = some (cs, ds) := by
  have back : (cs ++ '_' :: ds).reverse = ds.reverse ++ '_' :: cs.reverse := by simp
  have behind : ∀ c ∈ ds.reverse, (c != '_') = true := fun c hc => by
    refine bne_iff_ne.mpr ?_
    rintro rfl
    exact h (List.mem_reverse.mp hc)
  simp only [splitLastUnderscore, back, List.takeWhile_append_of_pos behind,
    List.dropWhile_append_of_pos behind]
  simp

theorem underscore_notMem_toDigits (n : Nat) : '_' ∉ Nat.toDigits 10 n := fun h =>
  absurd (Nat.isDigit_of_mem_toDigits (by decide) (by decide) h) (by decide)

theorem toList_callId (name : String) (position : Nat) : (callId name position).toList =
    "call_".toList ++ (name.toList ++ '_' :: Nat.toDigits 10 position) := by
  show ("call_" ++ name ++ "_" ++ Nat.repr position).toList = _
  simp only [String.toList_append, Nat.toList_repr, List.append_assoc]
  rfl

/-- What is read back from the id of a call is decided by the name in it. -/
theorem functionName_callId_eq (name : String) (position : Nat) :
    functionName (callId name position) =
      if name.toList.isEmpty then String.ofList ('_' :: Nat.toDigits 10 position) else name := by
  have marked : "call_".toList.isPrefixOf (callId name position).toList = true := by
    rw [toList_callId]
    exact List.isPrefixOf_iff_prefix.mpr (List.prefix_append _ _)
  have rest : (callId name position).toList.drop 5 =
      name.toList ++ '_' :: Nat.toDigits 10 position := by
    rw [toList_callId]
    rfl
  have digits : (Nat.toDigits 10 position).all Char.isDigit = true :=
    List.all_eq_true.mpr fun c => Nat.isDigit_of_mem_toDigits (by decide) (by decide)
  simp only [functionName, marked, if_true, rest,
    splitLastUnderscore_append (underscore_notMem_toDigits position), digits, Bool.and_true,
    String.ofList_toList]
  cases name.toList <;> rfl

/-- The name of a function is read back from the id of its call. -/
theorem functionName_callId {name : String} (h : name ≠ "") (position : Nat) :
    functionName (callId name position) = name := by
  have named : name.toList.isEmpty = false := by simpa using h
  rw [functionName_callId_eq, named]
  rfl

end Switchboard.Gemini
