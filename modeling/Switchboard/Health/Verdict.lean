import Switchboard.Health.Policy
import Switchboard.Number.Binary

/-!
# What a probe means for a channel

A disabled channel is never disabled again, and comes back only if it was disabled
automatically and answers in time. An enabled channel is disabled for slowness or for an
error that the policy names.
-/

namespace Switchboard.Health

/-! ## Seconds -/

/-- Whole hundredths with two places. -/
def hundredthsText (n : Nat) : String :=
  toString (n / 100) ++ "." ++ (if n % 100 < 10 then "0" else "") ++ toString (n % 100)

/-- Nanoseconds as seconds, in a binary number of 64 bits: the whole seconds and the
rest are rounded apart, and so is their sum. -/
def binarySeconds (nanoseconds : Nat) : Option Binary := do
  let whole ← BinaryFormat.double.round false (nanoseconds / 1000000000) 1
  let rest ← BinaryFormat.double.round false (nanoseconds % 1000000000) 1000000000
  let (n, d) := whole.magnitude
  let (m, e) := rest.magnitude
  BinaryFormat.double.round false (n * e + m * d) (d * e)

/-- Nanoseconds as seconds with two places. -/
def secondsText (nanoseconds : Nat) : String :=
  match binarySeconds nanoseconds with
  | some x => hundredthsText (roundHalfEven (x.magnitude.1 * 100) x.magnitude.2) ++ "s"
  | none => "s"

/-! ## The verdict -/

/-- What happens to the status of a channel. -/
inductive StatusChange where
  | disable (reason : String)
  | enable
  | keep
  deriving DecidableEq, Repr

/-- What a probe leads to: a change of the status, whether the latency is kept, and a note
for the report. -/
structure Verdict where
  change : StatusChange
  keepsLatency : Bool
  note : String
  deriving DecidableEq, Repr

/-- The verdict on a channel that is not enabled. -/
def Verdict.ofDisabled (p : DisablePolicy) (status : ChannelStatus) (failure : Option Failure)
    (elapsed : Nat) : Verdict :=
  match failure with
  | some f => ⟨.keep, false, "test error: " ++ f.message ++ ", status unchanged"⟩
  | none =>
    if p.isSlow elapsed then
      ⟨.keep, false, "response time " ++ secondsText elapsed ++ " exceeds threshold, skipped"⟩
    else if status = .autoDisabled then
      ⟨.enable, true, "recovered in " ++ secondsText elapsed ++ ", enabled"⟩
    else ⟨.keep, true, "manually disabled, not restored automatically"⟩

/-- The verdict on an enabled channel. -/
def Verdict.ofEnabled (p : DisablePolicy) (failure : Option Failure) (elapsed : Nat) : Verdict :=
  if p.isSlow elapsed then
    let reason := "response time " ++ secondsText elapsed ++ " exceeds threshold " ++
      (p.threshold.map secondsText).getD ""
    ⟨.disable reason, false, reason ++ ", disabled"⟩
  else match failure with
    | some f =>
      if p.disables f then ⟨.disable f.message, false, "test error: " ++ f.message ++ ", disabled"⟩
      else ⟨.keep, false, "test error: " ++ f.message⟩
    | none => ⟨.keep, true, "test completed in " ++ secondsText elapsed⟩

/-- The verdict on a channel with a status, by how its probe failed, if it did, and how
long it took. -/
def Verdict.of (p : DisablePolicy) (status : ChannelStatus) (failure : Option Failure)
    (elapsed : Nat) : Verdict :=
  if status = .enabled then .ofEnabled p failure elapsed else .ofDisabled p status failure elapsed

end Switchboard.Health
