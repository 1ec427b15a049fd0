import Switchboard.Chat.Request
import Switchboard.Claude.Request
import Switchboard.Json.Parser
import Switchboard.Text.Search

/-!
# Incoming requests

A request has a method and a target. The target is a path and perhaps a query behind a
question mark; a host before the path and a fragment behind it do not matter. A body is
JSON. It is read for the fields of its form: what the form does not know has to be
well-formed and nothing else.
-/

namespace Switchboard.Gateway

/-- A request to the gateway. -/
structure Incoming where
  method : String
  path : String
  query : Option String
  contentType : Option String
  body : String
  deriving DecidableEq, Repr

/-- A target without scheme and host. A path that is left out is a slash. -/
def localTarget : List Char → List Char
  | ':' :: '/' :: '/' :: cs =>
    match cs.dropWhile fun c => c ≠ '/' && c ≠ '?' with
    | '/' :: rest => '/' :: rest
    | rest => '/' :: rest
  | '/' :: cs => '/' :: cs
  | _ :: cs => localTarget cs
  | [] => []

/-- A request for a target. -/
def Incoming.ofTarget (method target : String) (contentType : Option String) (body : String) :
    Incoming :=
  let target := localTarget (target.toList.takeWhile (· ≠ '#'))
  let path := target.takeWhile (· ≠ '?')
  let rest := target.drop path.length
  ⟨method, String.ofList path, rest.tail?.map String.ofList, contentType, body⟩

/-- Whether a content type is that of JSON, without parameters. Capitals and blanks at the
end do not matter, nor does a semicolon before them. -/
def isJsonType (contentType : String) : Bool :=
  match Text.dropStart? "application/json" contentType.toLower with
  | none => false
  | some rest =>
    match rest.toList with
    | [] => true
    | c :: blanks => (c = ';' || c = ' ') && blanks.all (· = ' ')

/-- What a body may hold: the shape of its value, its meaning, and the numbers of 32 bits
among its fields. -/
structure Form (α : Type) where
  shape : Json.Shape
  read? : Json → Option α
  reals : α → List Json.Real32

namespace Form

/-- The form of requests for messages. -/
def messages : Form Claude.Request :=
  ⟨Claude.Request.shape, Claude.Request.ofJson?, fun r => r.temperature.toList ++ r.topP.toList⟩

/-- The form of requests for chat completions. -/
def chatCompletions : Form Chat.Request :=
  ⟨Chat.Request.shape, Chat.Request.ofJson?, fun r => r.temperature.toList ++ r.topP.toList⟩

variable {α : Type}

/-- The reader of bodies. -/
def reader (form : Form α) : Json.Reader := ⟨254, Numeral.Parts.nearest, form.shape⟩

/-- The value of a body. None of its numbers is out of range. -/
def ofText? (form : Form α) (body : String) : Option α := do
  let v ← form.reader.read? body.toList
  let a ← form.read? v
  if (form.reals a).all Option.isSome then some a else none

/-- The most bytes that a body may have. -/
def sizeLimit : Nat := 2097152

/-- The value of a request's body, or the status that says why there is none. -/
def ofRequest (form : Form α) (r : Incoming) : Except Nat α :=
  if !r.contentType.any isJsonType then .error 415
  else if sizeLimit < r.body.utf8ByteSize then .error 413
  else match form.ofText? r.body with
    | some a => .ok a
    | none => .error 422

end Form

end Switchboard.Gateway
