import Switchboard.Claude.Event

/-!
# Relays

A relay turns what a provider streams into the events of one message. It is a value: a
step takes it to the next value and emits events. A closed relay ignores what is left
of the stream.
-/

namespace Switchboard

open Claude (Event Usage)

/-- A step of a relay: the relay after it, and the events it emits. -/
abbrev Step (ρ : Type) := ρ → ρ × List Event

namespace Step

variable {ρ : Type}

/-- A step that emits nothing. -/
def silent (f : ρ → ρ) : Step ρ := fun r => (f r, [])

/-- A step that only emits. -/
def emit (events : List Event) : Step ρ := fun r => (r, events)

/-- Two steps, one after the other. -/
def seq (f g : Step ρ) : Step ρ := fun r =>
  let (r, first) := f r
  let (r, second) := g r
  (r, first ++ second)

/-- Steps one after the other. -/
def all : List (Step ρ) → Step ρ
  | [] => emit []
  | f :: fs => seq f (all fs)

/-- A step for what is there, and nothing else. -/
def forSome {α : Type} (value : Option α) (f : α → Step ρ) : Step ρ :=
  match value with
  | some a => f a
  | none => emit []

/-! ## Sequences of steps -/

theorem seq_apply (f g : Step ρ) (r : ρ) :
    f.seq g r = ((g (f r).1).1, (f r).2 ++ (g (f r).1).2) :=
  rfl

theorem seq_assoc (f g h : Step ρ) : seq (f.seq g) h = f.seq (seq g h) := by
  funext r
  simp only [seq_apply, List.append_assoc]

@[simp] theorem seq_emit_nil (f : Step ρ) : f.seq (emit []) = f := by
  funext r
  simp [seq_apply, emit]

@[simp] theorem all_nil : all ([] : List (Step ρ)) = emit [] :=
  rfl

@[simp] theorem all_cons (f : Step ρ) (fs : List (Step ρ)) : all (f :: fs) = f.seq (all fs) :=
  rfl

theorem all_append (fs gs : List (Step ρ)) : all (fs ++ gs) = seq (all fs) (all gs) := by
  induction fs with
  | nil => rfl
  | cons f fs ih => rw [List.cons_append, all_cons, all_cons, ih, seq_assoc]

/-- What is optional is a list of at most one step. -/
theorem forSome_eq_all {α : Type} (value : Option α) (f : α → Step ρ) :
    forSome value f = all (value.toList.map f) := by
  cases value with
  | none => rfl
  | some a => simp [forSome]

end Step

/-- What a relay does with the fragments of a stream. -/
class Relay (ρ : Type) (φ : outParam Type) where
  /-- Take the next fragment. -/
  accept : φ → Step ρ
  /-- The stream ended. -/
  finish : Step ρ
  /-- The client went away: emit nothing more. -/
  close : ρ → ρ
  isClosed : ρ → Bool
  /-- The usage that was reported to the client. -/
  usage? : ρ → Option Usage

end Switchboard
