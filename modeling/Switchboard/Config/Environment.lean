import Switchboard.Json.Basic
import Switchboard.Text.Blank

/-!
# Variables in configurations

A text in a configuration may name variables of the environment, as `env.NAME` between
two pairs of braces. Each of them is replaced by its value, all at once: what a value
looks like does not matter. The first text with a variable that is not set is an error,
which says where the text stands and names its first such variable.
-/

namespace Switchboard.Environment

/-- The variables that are set. -/
abbrev Variables := List (String × String)

/-- A piece of a text: a character that stands for itself, or a variable. -/
inductive Piece where
  | char (c : Char)
  | variable (name : String)
  deriving DecidableEq, Repr

/-- Whether a name may begin with the character. -/
def isNameStart (c : Char) : Bool := c.isAlpha || c = '_'

/-- Whether a name may go on with the character. -/
def isNameChar (c : Char) : Bool := c.isAlphanum || c = '_'

/-- The name of the variable that stands at the front, and how long its mark is. -/
def variableAt? (cs : List Char) : Option (String × Nat) :=
  match cs with
  | '{' :: '{' :: rest =>
    match rest.dropWhile Text.isBlank with
    | 'e' :: 'n' :: 'v' :: '.' :: rest =>
      let name := rest.takeWhile isNameChar
      match name.head? with
      | some c =>
        if isNameStart c then
          match (rest.drop name.length).dropWhile Text.isBlank with
          | '}' :: '}' :: after => some (String.ofList name, cs.length - after.length)
          | _ => none
        else none
      | none => none
    | _ => none
  | _ => none

/-- The pieces of a text. The marks of variables are found from the left; `skip` is what
is left of the last one. -/
def piecesFrom : Nat → List Char → List Piece
  | _, [] => []
  | skip + 1, _ :: cs => piecesFrom skip cs
  | 0, c :: cs =>
    match variableAt? (c :: cs) with
    | some (name, length) => .variable name :: piecesFrom (length - 1) cs
    | none => .char c :: piecesFrom 0 cs

/-- The pieces of a text. -/
def pieces (s : String) : List Piece := piecesFrom 0 s.toList

/-- The first variable of a text that is not set. -/
def unset? (vars : Variables) (ps : List Piece) : Option String :=
  ps.findSome? fun
    | .char _ => none
    | .variable name => if (vars.lookup name).isSome then none else some name

/-- The pieces with each variable replaced by its value. -/
def substitute (vars : Variables) (ps : List Piece) : String :=
  String.ofList (ps.flatMap fun
    | .char c => [c]
    | .variable name => ((vars.lookup name).getD "").toList)

/-- A step into a configuration. -/
inductive PathStep where
  | key (name : String)
  | place (index : Nat)
  deriving DecidableEq, Repr

/-- The steps after the first, a point before each key and brackets around each place. -/
def pathTail : List PathStep → String
  | [] => ""
  | .key name :: rest => "." ++ name ++ pathTail rest
  | .place index :: rest => "[" ++ toString index ++ "]" ++ pathTail rest

/-- A path as a text. -/
def pathText : List PathStep → String
  | .key name :: rest => name ++ pathTail rest
  | path => pathTail path

/-- A variable that is not set, and the path of the text that names it. -/
structure Missing where
  path : List PathStep
  name : String
  deriving DecidableEq, Repr

mutual

/-- Replace the variables in every text of a configuration at `path`. -/
def expand (vars : Variables) (path : List PathStep) : Json → Except Missing Json
  | .string s =>
    match unset? vars (pieces s) with
    | some name => .error ⟨path, name⟩
    | none => .ok (.string (substitute vars (pieces s)))
  | .array items => (expandItems vars path 0 items).map .array
  | .object members => (expandMembers vars path members).map .object
  | other => .ok other

/-- Replace the variables in the items of an array, from a place on. -/
def expandItems (vars : Variables) (path : List PathStep) (index : Nat) :
    List Json → Except Missing (List Json)
  | [] => .ok []
  | item :: rest => do
    let first ← expand vars (path ++ [.place index]) item
    let others ← expandItems vars path (index + 1) rest
    return first :: others

/-- Replace the variables in the members of a table. Their keys are left alone. -/
def expandMembers (vars : Variables) (path : List PathStep) :
    List (String × Json) → Except Missing (List (String × Json))
  | [] => .ok []
  | (key, value) :: rest => do
    let first ← expand vars (path ++ [.key key]) value
    let others ← expandMembers vars path rest
    return (key, first) :: others

end

end Switchboard.Environment
