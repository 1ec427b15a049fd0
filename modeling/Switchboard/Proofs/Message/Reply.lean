import Mathlib.Data.List.Forall2
import Switchboard.Json.Parser
import Switchboard.Proofs.Message.Grammar

/-!
# Reassembling a streamed message

Who reads the events of a message gets its content back : every start begins a block, the
deltas go to the block with their number, and at the end the texts of a block are
concatenated, and the pieces of the input of a tool use are concatenated and parsed
(`reassemble?`).
-/

namespace Switchboard.Claude

/-! ## Drafts of blocks -/

/-- A block in the making : how it started, and the deltas for it. -/
structure Draft where
  block : Block
  deltas : List Delta
  deriving DecidableEq, Repr

namespace Draft

/-- The draft with one more delta. -/
def add (d : Draft) (delta : Delta) : Draft := { d with deltas := d.deltas ++ [delta] }

/-- The pieces of text, one after another. -/
def texts (d : Draft) : String :=
  String.join (d.deltas.filterMap fun | .text s => some s | _ => none)

/-- The pieces of reasoning, one after another. -/
def thoughts (d : Draft) : String :=
  String.join (d.deltas.filterMap fun | .thinking s => some s | _ => none)

/-- The last signature. -/
def signature? (d : Draft) : Option String :=
  (d.deltas.filterMap fun | .signature s => some s | _ => none).getLast?

/-- The pieces of the input, one after another. -/
def json (d : Draft) : String :=
  String.join (d.deltas.filterMap fun | .inputJson s => some s | _ => none)

/-- The block that a draft amounts to, if its input can be parsed. -/
def finish? (d : Draft) : Option Block :=
  match d.block with
  | .text s citations cacheControl => some (.text (s ++ d.texts) citations cacheControl)
  | .thinking s signature => some (.thinking (s ++ d.thoughts) (d.signature?.or signature))
  | .toolUse id name input =>
    if d.json.isEmpty then some (.toolUse id name input)
    else (Json.parseSorted? d.json).map (.toolUse id name)
  | block => some block

theorem json_add (d : Draft) (s : String) : (d.add (.inputJson s)).json = d.json ++ s := by
  simp [json, add, String.join_append]

end Draft

/-! ## Taking events down -/

/-- The drafts behind an event. -/
def note (drafts : List Draft) : Event → List Draft
  | .blockStart _ block => drafts ++ [⟨block, []⟩]
  | .blockDelta index delta => drafts.modify index (·.add delta)
  | _ => drafts

/-- The drafts after some more events. -/
def noteAll (drafts : List Draft) (events : List Event) : List Draft := events.foldl note drafts

@[simp] theorem noteAll_nil (drafts : List Draft) : noteAll drafts [] = drafts :=
  rfl

@[simp] theorem noteAll_cons (drafts : List Draft) (event : Event) (events : List Event) :
    noteAll drafts (event :: events) = noteAll (note drafts event) events :=
  rfl

theorem noteAll_append (drafts : List Draft) (xs ys : List Event) :
    noteAll drafts (xs ++ ys) = noteAll (noteAll drafts xs) ys :=
  List.foldl_append

/-- A delta for the last block. -/
theorem note_last {drafts : List Draft} {n : Nat} (h : drafts.length = n) (d : Draft)
    (delta : Delta) :
    note (drafts ++ [d]) (.blockDelta n delta) = drafts ++ [d.add delta] := by
  subst h
  induction drafts with
  | nil => rfl
  | cons e drafts ih =>
    simp only [note, List.cons_append, List.length_cons, List.modify_succ_cons] at ih ⊢
    rw [ih]

/-- The closing delta, its stop reason and its usage. -/
def closing? (events : List Event) : Option (Option StopReason × Usage) :=
  events.findSome? fun | .messageDelta reason _ usage => some (reason, usage) | _ => none

theorem closing?_append (xs ys : List Event) :
    closing? (xs ++ ys) = (closing? xs).or (closing? ys) :=
  List.findSome?_append

/-- What an event says of the end of the message, if it is a closing delta. -/
def Event.closingDelta? : Event → Option (Option StopReason × Usage)
  | .messageDelta reason _ usage => some (reason, usage)
  | _ => none

/-- The closing deltas among events, each with its stop reason and its usage. -/
def closings (events : List Event) : List (Option StopReason × Usage) :=
  events.filterMap Event.closingDelta?

theorem closings_append (xs ys : List Event) : closings (xs ++ ys) = closings xs ++ closings ys :=
  List.filterMap_append

/-- Without a first closing delta there is none. -/
theorem closings_eq_nil {events : List Event} (h : closing? events = none) :
    closings events = [] :=
  List.filterMap_eq_nil_iff.mpr (List.findSome?_eq_none_iff.mp h)

/-- Amid a message there is no closing delta. -/
theorem closings_eq_nil_of_read? {p q : Place} {events : List Event} (h : p.read? events = some q)
    (hc : q ≠ .closing) (hd : q ≠ .done) : closings events = [] := by
  refine List.filterMap_eq_nil_iff.mpr fun event he => ?_
  cases event with
  | messageDelta reason sequence usage =>
    exact absurd he (Place.not_mem_messageDelta h hc hd reason sequence usage)
  | _ => rfl

@[simp] theorem closings_closingEvents (reason : Option StopReason) (sequence : Option String)
    (usage : Usage) : closings (closingEvents reason sequence usage) = [(reason, usage)] :=
  rfl

/-- What the events of a message say. -/
structure Reply where
  content : List Block
  stopReason : Option StopReason
  usage : Usage
  deriving DecidableEq, Repr

/-- The reply that events come to, if every draft can be finished and there is an end. -/
def reassemble? (events : List Event) : Option Reply := do
  let content ← (noteAll [] events).mapM Draft.finish?
  let (stopReason, usage) ← closing? events
  return ⟨content, stopReason, usage⟩

theorem mapM_finish? {drafts : List Draft} {blocks : List Block}
    (h : List.Forall₂ (fun d b => d.finish? = some b) drafts blocks) :
    drafts.mapM Draft.finish? = some blocks := by
  induction h with
  | nil => rfl
  | cons hb _ ih => simp [hb, ih]

/-- A message whose blocks are complete is reassembled when its closing delta comes. -/
theorem reassemble?_append_closing {events : List Event} {blocks : List Block}
    (isOpen : closing? events = none)
    (complete : (noteAll [] events).mapM Draft.finish? = some blocks) (reason : Option StopReason)
    (sequence : Option String) (usage : Usage) :
    reassemble? (events ++ closingEvents reason sequence usage) = some ⟨blocks, reason, usage⟩ := by
  have hn : noteAll [] (events ++ closingEvents reason sequence usage) = noteAll [] events :=
    noteAll_append [] events _
  have hc : closing? (events ++ closingEvents reason sequence usage) = some (reason, usage) := by
    rw [closing?_append, isOpen]
    rfl
  rw [reassemble?, hn, complete, hc]
  rfl

end Switchboard.Claude
