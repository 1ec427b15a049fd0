import Switchboard.Proofs.Merging.Usage
import Switchboard.Proofs.PerChunk.WellFormed

/-!
# The reason with which a message closes

When chunks have been taken and the stream has ended, either relay has closed its message
once. A relay that merges closes it with the first finish reason there is, whatever else
comes in the same chunk. A relay that goes chunk by chunk has one event for a chunk, and in
it text goes before calls and calls go before the reason : it closes the message with the
first reason that nothing goes before (`closing_reasons`). A reason that comes with text is
dropped there, and the message may close as if the answer had been complete
(`perChunk_drops_reason_behind_text`).
-/

namespace Switchboard.Relay

open Claude (Event StopReason closings closings_append closings_eq_nil_of_read?)
open Merging (Ending finishReason?)

/-- The reasons in the closing deltas of a run that ends like that. -/
def Merging.Ending.reasons : Ending → List (Option StopReason)
  | .stopped reason => [some reason]
  | .none | .left => []

/-! ## Chunk by chunk -/

namespace PerChunk

variable {r : PerChunk}

theorem Underway.closings_run (hr : Underway r) (actions : List (Action Chat.Chunk)) :
    (closings (run actions r).2).map Prod.fst = (ending actions).reasons := by
  obtain ⟨xs, r', usage, hx, hr', he⟩ := hr.exists_run actions
  rw [he, closings_append, closings_eq_nil_of_read? hx (place_ne r').1 (place_ne r').2]
  cases ending actions with
  | none | left => rfl
  | stopped reason =>
    obtain ⟨events, he, n, hn⟩ := closeMessage_eq hr' (some reason) none usage
    rw [endStep, he, closings_append, closings_eq_nil_of_read? hn nofun nofun]
    rfl

theorem closings_run_start (model : String) (promptTokens : Nat) (now : Instant)
    (actions : List (Action Chat.Chunk)) :
    (closings (run actions (start model promptTokens now)).2).map Prod.fst =
      (ending actions).reasons := by
  cases actions with
  | nil => rfl
  | cons a rest =>
    by_cases ha : a = .close
    · subst ha
      rw [run_cons, Step.seq_apply, run_of_isClosed rest rfl]
      rfl
    · rw [run_start model promptTokens now ha rest]
      exact (underway_opened model promptTokens now).closings_run (a :: rest)

end PerChunk

/-! ## The first reason -/

theorem Merging.ending_of_chunks (chunks : List Chat.Chunk) :
    ending (chunks.map .accept ++ [.finish]) =
      .stopped (Chat.stopReason (chunks.findSome? finishReason?)) := by
  induction chunks with
  | nil => rfl
  | cons chunk chunks ih =>
    rw [List.map_cons, List.cons_append, ending, List.findSome?_cons]
    cases finishReason? chunk with
    | none => exact ih
    | some reason => rfl

theorem PerChunk.ending_of_chunks (chunks : List Chat.Chunk) :
    ending (chunks.map .accept ++ [.finish]) =
      .stopped (Chat.stopReason (chunks.findSome? Chat.Chunk.closingReason?)) := by
  induction chunks with
  | nil => rfl
  | cons chunk chunks ih =>
    rw [List.map_cons, List.cons_append, ending, List.findSome?_cons]
    cases chunk.closingReason? with
    | none => exact ih
    | some reason => rfl

/-- Chunks and the end of the stream lead either relay to one closing delta. Merging, it
has the first finish reason of a first choice. Chunk by chunk, it has the first of those that
come without text and without a piece of a call that says something. Without such a reason
the answer ended its turn. -/
theorem closing_reasons [Tokenizer] (model : String) (promptTokens : Nat) (now : Instant)
    (chunks : List Chat.Chunk) :
    let actions := chunks.map .accept ++ [.finish]
    (closings (run actions (Merging.start model promptTokens now)).2).map Prod.fst =
        [some (Chat.stopReason (chunks.findSome? finishReason?))] ∧
      (closings (run actions (PerChunk.start model promptTokens now)).2).map Prod.fst =
        [some (Chat.stopReason (chunks.findSome? Chat.Chunk.closingReason?))] := by
  intro actions
  constructor
  · rw [Merging.closings_run_start model promptTokens now (Merging.ending_of_chunks chunks)]
    rfl
  · rw [PerChunk.closings_run_start, PerChunk.ending_of_chunks]
    rfl

/-- The last of a text, with the reason why it stops there. -/
def cutShort : Chat.Chunk :=
  ⟨"", "", 0, "", [⟨0, { Chat.Delta.empty with content := some "a" }, some .length⟩], none⟩

/-- A first choice stops at its length, and the message closes as if it had not. -/
theorem perChunk_drops_reason_behind_text :
    [cutShort].findSome? finishReason? = some .length ∧
      (closings (run [.accept cutShort, .finish] (PerChunk.start "m" 1 ⟨0⟩)).2).map Prod.fst ≠
        [some (Chat.stopReason (some .length))] ∧
      (closings (run [.accept cutShort, .finish] (PerChunk.start "m" 1 ⟨0⟩)).2).map Prod.fst =
        [some .endTurn] := by
  decide +kernel

end Switchboard.Relay
