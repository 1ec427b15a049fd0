/-!
# One at a time

A flight is held by at most one holder. Who asks while it is held does not get it, and
the holder gives it back.
-/

namespace Switchboard.Health

/-- Whether somebody holds it. -/
structure Flight where
  held : Bool
  deriving DecidableEq, Repr

namespace Flight

/-- Nobody holds it. -/
def free : Flight := ⟨false⟩

/-- The flight with a holder, if it had none. -/
def acquire? (f : Flight) : Option Flight := if f.held then none else some ⟨true⟩

/-- The flight after its holder gave it back. -/
def release (_ : Flight) : Flight := ⟨false⟩

end Flight

end Switchboard.Health
