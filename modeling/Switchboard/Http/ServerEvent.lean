/-!
# Server-sent events

A stream of events is a text of lines, each ended by a line feed, a carriage return or
both. A line is a field, a comment or empty; an empty line completes the event before
it. Values of several data fields are joined by line feeds, and an event without data
is none.
-/

namespace Switchboard.Http

/-- An event of a stream. -/
structure ServerEvent where
  name : String
  data : String
  deriving DecidableEq, Repr

namespace ServerEvent

/-- The lines that have ended, behind the start `line` of the first one. A carriage
return that stands last may still be half of an end. -/
def endedLinesFrom (line : List Char) : List Char → List (List Char)
  | [] => []
  | ['\r'] => []
  | '\r' :: '\n' :: rest => line :: endedLinesFrom [] rest
  | '\r' :: c :: rest => line :: endedLinesFrom [] (c :: rest)
  | '\n' :: rest => line :: endedLinesFrom [] rest
  | c :: rest => endedLinesFrom (line ++ [c]) rest
termination_by cs => cs.length

/-- The lines of a text that have ended. -/
def endedLines (cs : List Char) : List (List Char) := endedLinesFrom [] cs

/-- The name and the value of a field. A line without a colon is a name, and one space
behind the colon does not count. A comment has an empty name. -/
def fieldOf (line : List Char) : List Char × List Char :=
  let name := line.takeWhile (· ≠ ':')
  match line.drop name.length with
  | _ :: ' ' :: value => (name, value)
  | _ :: value => (name, value)
  | [] => (name, [])

/-- An event that is being collected: its name and the values of its data fields. -/
structure Draft where
  name : List Char
  data : List (List Char)
  deriving DecidableEq, Repr

/-- Nothing has been collected. -/
def Draft.empty : Draft := ⟨[], []⟩

/-- Take a field into account. -/
def Draft.add (d : Draft) (line : List Char) : Draft :=
  match fieldOf line with
  | (['e', 'v', 'e', 'n', 't'], value) => { d with name := value }
  | (['d', 'a', 't', 'a'], value) => { d with data := d.data ++ [value] }
  | _ => d

/-- The event that an empty line completes. -/
def Draft.event? (d : Draft) : Option ServerEvent :=
  if d.data.isEmpty then none
  else some
    ⟨if d.name.isEmpty then "message" else String.ofList d.name,
      String.ofList (['\n'].intercalate d.data)⟩

/-- The events that lines complete, the first of them begun already. -/
def ofLines (d : Draft) : List (List Char) → List ServerEvent
  | [] => []
  | [] :: rest => d.event?.toList ++ ofLines .empty rest
  | line :: rest => ofLines (d.add line) rest

/-- The events of a text. -/
def ofChars (cs : List Char) : List ServerEvent := ofLines .empty (endedLines cs)

end ServerEvent

end Switchboard.Http
