import Switchboard.Relay.Basic

/-!
# Runs of a relay

Whoever drives a relay hands it fragments, tells it that the stream ended, or closes it,
in any order. A run is a list of such actions.
-/

namespace Switchboard.Relay

/-- What can be done to a relay. -/
inductive Action (φ : Type) where
  | accept (fragment : φ)
  | finish
  | close

variable {ρ φ : Type} [Relay ρ φ]

/-- What is done to the relay. -/
def Action.step : Action φ → Step ρ
  | accept fragment => Relay.accept fragment
  | finish => Relay.finish
  | close => Step.silent Relay.close

/-- Actions one after another. -/
def run (actions : List (Action φ)) : Step ρ := Step.all (actions.map Action.step)

@[simp] theorem run_cons (a : Action φ) (actions : List (Action φ)) :
    run (a :: actions) = (Step.seq a.step (run actions) : Step ρ) :=
  rfl

theorem run_singleton (a : Action φ) : run [a] = (a.step : Step ρ) := by
  rw [run_cons, run, List.map_nil, Step.all_nil, Step.seq_emit_nil]

theorem run_append (first second : List (Action φ)) :
    run (first ++ second) = (Step.seq (run first) (run second) : Step ρ) := by
  rw [run, List.map_append, Step.all_append, run, run]

end Switchboard.Relay
