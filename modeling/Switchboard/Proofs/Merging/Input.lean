import Switchboard.Proofs.Relay.Action
import Switchboard.Relay.Merging

/-!
# What a merging relay takes in

A chunk is a report of usage followed by pieces of reasoning, of text and of tool calls,
each taken by a step of its own, and at last perhaps the reason why the answer stopped
(`push_eq`). A run takes the inputs of its chunks (`inputs`) up to the first thing that
ends the message (`ending`).
-/

namespace Switchboard.Relay.Merging

open Claude (Event StopReason)

/-! ## The inputs of a chunk -/

/-- What a relay takes one at a time. -/
inductive Input where
  | report (usage : Option Chat.Usage)
  | thinking (content signature : Option String)
  | text (s : String)
  | piece (d : Chat.ToolCallDelta)
  deriving DecidableEq

/-- Take an input. -/
def Input.take : Input → Step Merging
  | report usage => Step.silent fun r => { r with lastUsage := usage.or r.lastUsage }
  | thinking content signature => onThinking content signature
  | text s => onText s
  | piece d => onCall d

/-- Inputs one after another. -/
def feed (inputs : List Input) : Step Merging := Step.all (inputs.map Input.take)

@[simp] theorem feed_nil : feed [] = Step.emit [] :=
  rfl

@[simp] theorem feed_cons (x : Input) (xs : List Input) : feed (x :: xs) = x.take.seq (feed xs) :=
  rfl

theorem feed_append (xs ys : List Input) : feed (xs ++ ys) = (feed xs).seq (feed ys) := by
  rw [feed, List.map_append, Step.all_append, feed, feed]

theorem feed_concat (xs : List Input) (x : Input) :
    feed (xs ++ [x]) = (feed xs).seq x.take := by
  rw [feed_append, feed_cons, feed_nil, Step.seq_emit_nil]

/-- The pieces of calls in a choice that count : the first of each index. -/
def choicePieces (choice : Chat.ChunkChoice) : List Chat.ToolCallDelta :=
  firstPieces [] (choice.delta.toolCalls.getD [])

/-- The inputs that a choice comes to, in the order in which they are taken. -/
def choiceInputs (choice : Chat.ChunkChoice) : List Input :=
  choice.delta.reasoningContent.toList.map (fun s => .thinking (some s) none) ++
    choice.delta.thinking.toList.map (fun t => .thinking t.content t.signature) ++
    (Chat.nonEmpty? choice.delta.content).toList.map .text ++
    (choicePieces choice).map .piece

/-- What the first choice of a chunk brings, reports of usage apart. -/
def chunkParts (chunk : Chat.Chunk) : List Input := chunk.choices.head?.toList.flatMap choiceInputs

/-- The inputs that a chunk comes to. Its usage is taken before its parts. -/
def chunkInputs (chunk : Chat.Chunk) : List Input := .report chunk.usage :: chunkParts chunk

/-- Why the answer stopped, as the first choice of a chunk has it. -/
def finishReason? (chunk : Chat.Chunk) : Option Chat.FinishReason :=
  chunk.choices.head?.bind (·.finishReason)

/-! ## How a run ends -/

/-- How the message ended, if it has. -/
inductive Ending where
  /-- The message is still open. -/
  | none
  /-- The client went away first. -/
  | left
  /-- A reason to stop came first. -/
  | stopped (reason : StopReason)
  deriving DecidableEq

/-- The first thing that ends the message. -/
def ending : List (Action Chat.Chunk) → Ending
  | [] => .none
  | .accept chunk :: rest =>
    match finishReason? chunk with
    | some reason => .stopped (Chat.stopReason (some reason))
    | Option.none => ending rest
  | .finish :: _ => .stopped .endTurn
  | .close :: _ => .left

/-- The chunks up to the end of the message, that of the finish reason included. -/
def heard : List (Action Chat.Chunk) → List Chat.Chunk
  | .accept chunk :: rest => chunk :: if (finishReason? chunk).isSome then [] else heard rest
  | _ => []

/-- The inputs up to the end of the message. -/
def inputs (actions : List (Action Chat.Chunk)) : List Input := (heard actions).flatMap chunkInputs

theorem inputs_accept (chunk : Chat.Chunk) (rest : List (Action Chat.Chunk)) :
    inputs (.accept chunk :: rest) = chunkInputs chunk ++
      if (finishReason? chunk).isSome then [] else inputs rest := by
  simp only [inputs, heard, List.flatMap_cons]
  split <;> rfl

/-! ## Steps in parts -/

variable [Tokenizer]

/-- Close the message if there is a reason. -/
def closeFor (reason : Option Chat.FinishReason) : Step Merging :=
  Step.forSome reason fun reason => closeMessage (Chat.stopReason (some reason))

theorem onChoice_eq (choice : Chat.ChunkChoice) :
    onChoice choice = (feed (choiceInputs choice)).seq (closeFor choice.finishReason) := by
  simp only [onChoice, choiceInputs, feed, closeFor, Step.forSome_eq_all, List.map_append,
    List.map_map, Step.all_append, Step.all_cons, Step.all_nil, Step.seq_emit_nil, Step.seq_assoc,
    choicePieces]
  rfl

/-- Open the message unless it is open. -/
def ensureMessage : Step Merging := fun r => if r.phase = .idle then openMessage r else (r, [])

theorem push_eq (chunk : Chat.Chunk) {r : Merging} (h : r.phase ≠ .closed) :
    push chunk r = Step.all [ensureMessage, feed (chunkInputs chunk),
      closeFor (finishReason? chunk)] r := by
  have hc : Step.forSome chunk.choices.head? onChoice =
      (feed (chunk.choices.head?.toList.flatMap choiceInputs)).seq
        (closeFor (finishReason? chunk)) := by
    cases hh : chunk.choices.head? with
    | none => simp [finishReason?, hh, closeFor, Step.forSome]
    | some choice => simp [finishReason?, hh, Step.forSome, onChoice_eq]
  rw [push, if_neg h, hc]
  simp only [Step.all_cons, Step.all_nil, Step.seq_emit_nil, chunkInputs, chunkParts, feed_cons,
    Step.seq_assoc]
  rfl

/-- The step that ends the message so. -/
def Ending.step : Ending → Step Merging
  | none => Step.emit []
  | left => Step.silent close
  | stopped reason => closeMessage reason

end Switchboard.Relay.Merging
