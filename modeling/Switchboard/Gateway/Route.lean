import Switchboard.Text.Search

/-!
# Routes

A route is a pattern of paths. Beside characters that stand for themselves it has
parameters, each for what is left of a segment, and perhaps a last one for what is left of
the path. Of the routes that a path takes, the one that is literal for longer comes first.
-/

namespace Switchboard.Gateway

/-- A piece of a pattern. -/
inductive Piece where
  | literal (c : Char)
  | parameter
  | remainder
  deriving DecidableEq, Repr

/-- A pattern of paths, piece by piece. -/
abbrev Route := List Piece

namespace Route

/-- The route of a text without parameters. -/
def fixed (text : String) : Route := text.toList.map .literal

/-- The pieces of a pattern, or of what follows the start of a parameter's name. Names
stand in braces, that of a remainder behind a star; a brace of its own is written twice. -/
def pieces : Bool → List Char → Route
  | _, [] => []
  | true, c :: cs => pieces (c ≠ '\x7d') cs
  | false, '\x7b' :: '\x7b' :: cs => .literal '\x7b' :: pieces false cs
  | false, '\x7d' :: '\x7d' :: cs => .literal '\x7d' :: pieces false cs
  | false, '\x7b' :: '*' :: cs => .remainder :: pieces true cs
  | false, '\x7b' :: cs => .parameter :: pieces true cs
  | false, c :: cs => .literal c :: pieces false cs

/-- The route that a pattern describes. -/
def ofPattern (pattern : String) : Route := pieces false pattern.toList

/-- What the parameters of a route stand for in a path; nothing if the path does not take
the route. A parameter is empty only where a slash follows. -/
def capture? : Route → List Char → Option (List String)
  | [], [] => some []
  | .literal c :: route, d :: cs => if c = d then capture? route cs else none
  | .parameter :: route, c :: cs =>
    let value := (c :: cs).takeWhile (· ≠ '/')
    (capture? route ((c :: cs).drop value.length)).map (String.ofList value :: ·)
  | .remainder :: _, c :: cs => some [String.ofList (c :: cs)]
  | _, _ => none

/-- Whether a route is literal where the other one, the same before, is not. -/
def precedes : Route → Route → Bool
  | .literal c :: a, .literal d :: b => c = d && precedes a b
  | .literal _ :: _, _ => true
  | .parameter :: a, .parameter :: b => precedes a b
  | _, _ => false

end Route

end Switchboard.Gateway
