import Switchboard.Health.Flight
import Switchboard.Health.Probe
import Switchboard.Health.Report
import Switchboard.Health.Verdict

/-!
# The monitor

The monitor probes channels and keeps their status in line with what it finds: one
channel on demand, or all of them in a sweep. A sweep first lists the channels and then
probes them one after another, each with the status that it had in the list. Only one
sweep runs at a time.
-/

namespace Switchboard.Health

variable {σ : Type} [Tokenizer]

/-- What the monitor works with, and how it is set up. -/
structure Monitor (σ : Type) where
  surroundings : Surroundings σ
  relay : RelaySettings
  health : HealthSettings

/-- How a test of one channel came out. The time is in nanoseconds. -/
structure TestResult where
  success : Bool
  message : String
  elapsed : Nat
  deriving DecidableEq, Repr

namespace Monitor

/-- When the monitor disables channels. -/
def policy (m : Monitor σ) : DisablePolicy := .ofSettings m.health

/-- Use the store; its failures are failures of the monitor. -/
def store {α : Type} (f : σ → Except String α × σ) : ExceptT Failure (StateM (Session σ)) α :=
  fun session =>
    let (a, world) := f session.world
    (a.mapError .store, { session with world := world })

/-- Probe a channel, and measure how long it takes. -/
def timedProbe (m : Monitor σ) (c : Channel) (asked : Option String) :
    StateM (Session σ) (Except Failure Success × Nat) := do
  let start ← Probe.watch m.surroundings
  let outcome ← Probe.run m.surroundings m.relay m.health c asked
  let stop ← Probe.watch m.surroundings
  return (outcome, stop - start)

/-- Keep what a test of the channel with an id found. A failure that disables takes an
enabled channel out of rotation. -/
def applyTest (m : Monitor σ) (id : Nat) (c : Channel) (outcome : Except Failure Success)
    (elapsed : Nat) : ExceptT Failure (StateM (Session σ)) TestResult := do
  match outcome with
  | .ok _ =>
    store (m.surroundings.store.setResponseTime id elapsed)
    return ⟨true, "", elapsed⟩
  | .error f =>
    if c.isEnabled && m.policy.disables f then
      store (m.surroundings.store.setStatus id .autoDisabled f.message)
    return ⟨false, f.message, elapsed⟩

/-- Test one channel. A probe that fails is a result, not a failure. -/
def test (m : Monitor σ) (id : Nat) (asked : Option String) :
    ExceptT Failure (StateM (Session σ)) TestResult := do
  match ← store (m.surroundings.store.channel id) with
  | none => throw (.noSuchChannel id)
  | some c =>
    let (outcome, elapsed) ← m.timedProbe c asked
    m.applyTest id c outcome elapsed

/-! ## Sweeps -/

/-- Carry out a verdict on a channel. -/
def apply (m : Monitor σ) (c : Channel) (v : Verdict) (elapsed : Nat) :
    ExceptT Failure (StateM (Session σ)) Unit := do
  match v.change with
  | .disable reason => store (m.surroundings.store.setStatus c.id .autoDisabled reason)
  | .enable => store (m.surroundings.store.setStatus c.id .enabled "channel test succeeded")
  | .keep => pure ()
  if v.keepsLatency then store (m.surroundings.store.setResponseTime c.id elapsed)

/-- The failure of an outcome, if it is one. -/
def failure? {α : Type} : Except Failure α → Option Failure
  | .ok _ => none
  | .error f => some f

/-- Probe one of the listed channels and carry out the verdict. A store that fails does not
stop the sweep. -/
def visit (m : Monitor σ) (c : Channel) : StateM (Session σ) (Channel × String) := do
  modify fun session =>
    { session with world := m.surroundings.sleep m.health.requestInterval session.world }
  let (outcome, elapsed) ← m.timedProbe c none
  let verdict := Verdict.of m.policy c.status (failure? outcome) elapsed
  let _ ← (m.apply c verdict elapsed).run
  return (c, verdict.note)

/-- Deliver a report; whether it arrives does not matter. -/
def deliver (m : Monitor σ) (r : Report) : StateM (Session σ) Unit := fun session =>
  let (_, world) := m.surroundings.notify reportTitle r.render session.world
  ((), { session with world := world })

/-- Sweep the listed channels, and deliver the report if it is wanted. -/
def sweep (m : Monitor σ) (channels : List Channel) (notify : Bool) :
    StateM (Session σ) Report := do
  let report : Report := ⟨← channels.mapM m.visit⟩
  if notify then m.deliver report
  return report

/-- Ask for a sweep. The channels to sweep are listed while the flight is held; it is given
back if they cannot be listed. -/
def beginSweep (m : Monitor σ) (flight : Flight) :
    StateM (Session σ) (Except Failure (List Channel) × Flight) := do
  match flight.acquire? with
  | none => return (.error .alreadySweeping, flight)
  | some flight =>
    match ← (store m.surroundings.store.channels).run with
    | .ok channels => return (.ok channels, flight)
    | .error f => return (.error f, flight.release)

end Monitor

end Switchboard.Health
