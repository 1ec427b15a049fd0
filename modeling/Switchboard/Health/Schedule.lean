import Switchboard.Config.Settings

/-!
# Periodic sweeps

Sweeps are started at the multiples of a period, the first one after a whole period. A
sweep that is due while the one before it still runs is left out. Times are in
nanoseconds since the start.
-/

namespace Switchboard

/-- The period between two sweeps; none if sweeps are turned off. -/
def HealthSettings.sweepPeriod? (s : HealthSettings) : Option Nat :=
  let seconds := min (s.frequencyMinutes * 60) Json.u64Max
  if seconds = 0 then none else some (seconds * Duration.second)

namespace Health.Schedule

/-- How long a sweep of a number of channels takes if its probes take no time. -/
def sweepTime (s : HealthSettings) (channels : Nat) : Nat := channels * s.requestInterval

/-- Of the times at which a sweep is due, those at which it is started. A sweep runs up to
and including the end of its time. -/
def startsFrom (sweepTime : Nat) (busyUntil : Nat) : List Nat → List Nat
  | [] => []
  | t :: rest =>
    if t ≤ busyUntil then startsFrom sweepTime busyUntil rest
    else t :: startsFrom sweepTime (t + sweepTime) rest

/-- The times before an end at which a sweep is due. -/
def dueTimes (period stop : Nat) : List Nat :=
  (List.range ((stop - 1) / period)).map fun k => (k + 1) * period

/-- The times before an end at which a sweep is started. -/
def starts (period sweepTime stop : Nat) : List Nat :=
  startsFrom sweepTime 0 (dueTimes period stop)

/-- Whether a sweep that was started runs at a time. -/
def isRunningAt (time sweepTime : Nat) (starts : List Nat) : Bool :=
  starts.any fun t => t < time && time ≤ t + sweepTime

/-- What periodic sweeps do before an end: the times at which the channels are listed, and
whether a sweep runs at the end. If listing fails, nothing is swept. -/
def run (s : HealthSettings) (channels stop : Nat) (listable : Bool) : Option (List Nat × Bool) :=
  s.sweepPeriod?.map fun period =>
    if listable then
      let starts := starts period (sweepTime s channels) stop
      (starts, isRunningAt stop (sweepTime s channels) starts)
    else (dueTimes period stop, false)

end Health.Schedule

end Switchboard
