import Switchboard.Json.Lexer
import Switchboard.Json.Shape

/-!
# Reading a JSON text

A stack machine over the tokens: each open array or object is a frame that holds what
it has so far, and a token moves the machine or is refused. A text is read if the machine
ends with one value and no open frame.

A reader says what numerals stand for and which parts of the value are kept. What is
skipped has to be well-formed, but neither its numerals nor the escapes in its texts need
to stand for anything, and only arrays and objects that are kept may not be open too many
at once.
-/

namespace Switchboard.Json

/-- How values are read. -/
structure Reader where
  /-- How many arrays and objects that are kept may be open at once. -/
  depthLimit : Nat
  number : Numeral.Parts → Option JsonNumber
  shape : Shape

/-- The reader that keeps everything. -/
def Reader.standard : Reader := ⟨127, Numeral.Parts.value, .whole⟩

/-- An open array or object, what it holds kept backwards; an object that waits for a
value also holds its key. -/
inductive Frame where
  | array (shape : Shape) (back : List Json)
  | object (shape : Shape) (back : List (String × Json)) (key : String)
  deriving Repr

/-- What may come next. In `first` an array may also close, in `firstKey` an object. -/
inductive Expect where
  | value
  | first
  | firstKey
  | key (back : List (String × Json))
  | colon (back : List (String × Json)) (key : String)
  | moreItems (back : List Json)
  | moreMembers (back : List (String × Json))
  | done (value : Json)
  deriving Repr

/-- The frames around the place that is read, innermost first. -/
structure Machine where
  frames : List Frame
  expect : Expect
  deriving Repr

namespace Machine

/-- Nothing has been read, and a value may come. -/
def start : Machine := ⟨[], .value⟩

/-- The shape of the value inside the given frames. -/
def place (r : Reader) : List Frame → Shape
  | [] => r.shape
  | .array shape back :: _ => shape.itemAt back.length
  | .object shape _ key :: _ => shape.member key

/-- Hand a finished value to the innermost frame. -/
def give (frames : List Frame) (v : Json) : Machine :=
  match frames with
  | [] => ⟨[], .done v⟩
  | .array _ back :: outer => ⟨outer, .moreItems (v :: back)⟩
  | .object shape back key :: outer =>
    ⟨outer, .moreMembers (if (shape.member key).isSkipped then back else (key, v) :: back)⟩

/-- Begin a value inside the given frames. -/
def beginValue (r : Reader) (frames : List Frame) (t : Token) : Option Machine :=
  let skipped := (place r frames).isSkipped
  match t with
  | .scalar v => some (give frames v)
  | .numeral p =>
    if skipped then some (give frames .null)
    else (r.number p).map fun n => give frames (.number n)
  | .flawedText => if skipped then some (give frames .null) else none
  | .openArray =>
    if skipped ∨ frames.length < r.depthLimit then some ⟨frames, .first⟩ else none
  | .openObject =>
    if skipped ∨ frames.length < r.depthLimit then some ⟨frames, .firstKey⟩ else none
  | _ => none

/-- The key of a member inside the given frames. -/
def key? (r : Reader) (frames : List Frame) : Token → Option String
  | .scalar (.string k) => some k
  | .flawedText => if (place r frames).isSkipped then some "" else none
  | _ => none

/-- Read a token, if it may come. -/
def step (r : Reader) (m : Machine) (t : Token) : Option Machine :=
  match m.expect, t with
  | .value, t => beginValue r m.frames t
  | .first, .closeArray => some (give m.frames (.array []))
  | .first, t => beginValue r (.array (place r m.frames) [] :: m.frames) t
  | .firstKey, .closeObject => some (give m.frames (.object []))
  | .firstKey, t => (key? r m.frames t).map fun k => ⟨m.frames, .colon [] k⟩
  | .key back, t => (key? r m.frames t).map fun k => ⟨m.frames, .colon back k⟩
  | .colon back k, .colon => some ⟨.object (place r m.frames) back k :: m.frames, .value⟩
  | .moreItems back, .comma => some ⟨.array (place r m.frames) back :: m.frames, .value⟩
  | .moreItems back, .closeArray => some (give m.frames (.array back.reverse))
  | .moreMembers back, .comma => some ⟨m.frames, .key back⟩
  | .moreMembers back, .closeObject => some (give m.frames (.object back.reverse))
  | _, _ => none

/-- Read tokens one after another. -/
def run (r : Reader) : Machine → List Token → Option Machine
  | m, [] => some m
  | m, t :: ts => (m.step r t).bind fun m => run r m ts

/-- The value that has been read, if it is whole. -/
def result? (m : Machine) : Option Json :=
  match m.expect with
  | .done v => some v
  | _ => none

end Machine

/-- Read a text, objects as they are written. -/
def Reader.read? (r : Reader) (cs : List Char) : Option Json := do
  let tokens ← tokens? cs
  let m ← Machine.start.run r tokens
  m.result?

/-- Read a text, objects as they are written. -/
def parse? (text : String) : Option Json := Reader.standard.read? text.toList

/-- Read a free value: members in key order, the last of equal keys. -/
def parseSorted? (text : String) : Option Json := (parse? text).map sorted

end Switchboard.Json
