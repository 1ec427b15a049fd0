import Mathlib.Algebra.GroupWithZero.Nat
import Switchboard.Proofs.Merging.Agreement
import Switchboard.Proofs.Merging.Fidelity

/-!
# The usage that a relay reports

A message closes with the counts that the provider reported last, and with estimates for
those that it left out : of the prompt the estimate that the relay started with, of the
answer one that is made from the chunks (`answerEstimate`). It counts all the text, and
each call once, by the name that the call has in the end and with all the arguments that
came for it, whether or not its block was still open. The relay has the usage that it
closed the message with, and none unless it did (`run_start_reports`).
-/

namespace Switchboard.Relay.Merging

open Claude (StopReason closings)

variable {r : Merging}

/-! ## What chunks amount to -/

/-- The text that chunks bring, piece after piece. -/
def saidText (chunks : List Chat.Chunk) : String :=
  String.join (chunks.filterMap fun chunk =>
    chunk.choices.head?.bind fun choice => Chat.nonEmpty? choice.delta.content)

/-- The last usage that chunks report. -/
def lastReport? (chunks : List Chat.Chunk) : Option Chat.Usage :=
  (chunks.filterMap (·.usage)).getLast?

/-- The name that a call has in the end : that of its first piece with both an id and a
name, or else that of its first piece, made up if there is none. -/
def finalName (now : Instant) (index : Nat) (chunks : List Chat.Chunk) : String :=
  ((identity? now (deltasOf index chunks)).map (·.2)).getD ""

theorem texts_inputs (actions : List (Action Chat.Chunk)) :
    String.join ((inputs actions).filterMap Input.text?) = saidText (heard actions) := by
  rw [inputs, List.filterMap_flatMap, saidText, List.filterMap_eq_flatMap_toList]
  simp only [texts_chunkInputs]

/-- What is known of the calls, counted one index after another. -/
theorem Knows.callTexts {actions : List (Action Chat.Chunk)} (h : Knows (inputs actions) r)
    (distinct : r.calls.indices.Nodup) :
    (r.calls.map fun p => Tokens.callText p.2.name p.2.arguments) =
      (arrivals actions).map fun index =>
        Tokens.callText (finalName r.now index (heard actions))
          (String.join (fragmentsOf index (heard actions))) := by
  have hm := map_calls distinct fun c => Tokens.callText c.name c.arguments
  refine (List.map_inj_right fun _ _ => Option.some.inj).mp ?_
  rw [List.map_map, List.map_map, ← indicesOf_inputs, ← h.arrived]
  refine hm.trans (List.map_congr_left fun index hi => ?_)
  -- A call that has arrived has pieces, so it has an identity.
  obtain ⟨c, hc⟩ := Calls.exists_lookup hi
  have hk := h.known index
  rw [hc, callOf?] at hk
  obtain ⟨⟨id, name⟩, hid, rfl⟩ := Option.map_eq_some_iff.mp hk.symm
  rw [hc, Function.comp_apply, finalName, ← piecesOf_inputs, hid, ← argumentsOf_inputs]
  rfl

section Estimate

variable [Tokenizer]

/-- The tokens of an answer, estimated from the chunks up to the end of the message. -/
def answerEstimate (now : Instant) (actions : List (Action Chat.Chunk)) : Nat :=
  Tokens.estimate (saidText (heard actions)) + ((arrivals actions).map fun index =>
    Tokens.estimate (Tokens.callText (finalName now index (heard actions))
      (String.join (fragmentsOf index (heard actions))))).sum

theorem estimateAll_eq_sum (texts : List String) :
    Tokens.estimateAll texts = (texts.map Tokens.estimate).sum := by
  rw [Tokens.estimateAll, List.sum, List.foldr_map]

end Estimate

/-! ## Runs -/

section Runs

variable (model : String) (promptTokens : Nat) (now : Instant)

theorem taken_lastUsage (actions : List (Action Chat.Chunk)) :
    (taken model promptTokens now (inputs actions)).1.lastUsage = lastReport? (heard actions) := by
  rw [taken_fst, (atRest_opened model promptTokens now).feed_lastUsage, inputs,
    usage?_chunkInputs]
  exact Option.or_none

variable [Tokenizer]

theorem taken_estimatedOutput (actions : List (Action Chat.Chunk)) :
    (taken model promptTokens now (inputs actions)).1.estimatedOutput =
      answerEstimate now actions := by
  have hr := atRest_opened model promptTokens now
  have hk := taken_knows model promptTokens now (inputs actions)
  have ht := (atRest_taken model promptTokens now (inputs actions)).distinct
  have hn : (taken model promptTokens now (inputs actions)).1.now = now := hr.feed_now _
  have hs : (taken model promptTokens now (inputs actions)).1.text = saidText (heard actions) := by
    rw [taken_fst, hr.feed_text, texts_inputs]
    exact String.empty_append
  rw [estimatedOutput, hk.callTexts ht, hn, hs, estimateAll_eq_sum, List.map_map,
    Nat.add_comm, answerEstimate]
  rfl

/-- The events of a whole message have one closing delta. -/
theorem closings_run_start {actions : List (Action Chat.Chunk)} {reason : StopReason}
    (stopped : ending actions = .stopped reason) :
    closings (run actions (start model promptTokens now)).2 =
      [(some reason, (taken model promptTokens now (inputs actions)).1.finalUsage)] := by
  have hr := atRest_opened model promptTokens now
  have hf := atRest_taken model promptTokens now (inputs actions)
  have hc : Tidy { (taken model promptTokens now (inputs actions)).1 with phase := .finishing } :=
    { hf.toTidy with }
  have hx : closings (taken model promptTokens now (inputs actions)).2 = [] := by
    show closings (openingEvent model promptTokens now :: (feed (inputs actions) _).2) = []
    exact Claude.closings_eq_nil (hr.closing?_feed (inputs actions))
  rw [run_start_eq_taken model promptTokens now (opens_of_stopped stopped), stopped, Ending.step,
    closeMessage_eq reason hf.toTidy, Claude.closings_append, Claude.closings_append, hx,
    Claude.closings_eq_nil (settle_moves hc.known).closing?_eq_none, List.nil_append,
    List.nil_append, Claude.closings_closingEvents]

/-- The relay has the usage with which it closed the message, if it did. -/
theorem usage?_run_start (actions : List (Action Chat.Chunk)) :
    Relay.usage? (run actions (start model promptTokens now)).1 = match ending actions with
      | .stopped _ => some (taken model promptTokens now (inputs actions)).1.finalUsage
      | .none | .left => none := by
  by_cases ho : opens actions = true
  · have hf := atRest_taken model promptTokens now (inputs actions)
    have hu : (taken model promptTokens now (inputs actions)).1.reported = none := by
      rw [taken_fst, (atRest_opened model promptTokens now).feed_frame]
      rfl
    rw [run_start_eq_taken model promptTokens now ho]
    cases ending actions with
    | none | left => exact hu
    | stopped reason =>
      show (closeMessage reason _).1.reported = _
      rw [closeMessage_eq reason hf.toTidy]
  · obtain ⟨hr, he⟩ := run_start_of_not_opens model promptTokens now (Bool.eq_false_iff.mpr ho)
    rw [hr]
    rcases he with he | he <;> rw [he] <;> rfl

/-- A message closes with one usage, and the relay has it then. With `u` the last usage that
was reported up to the end of the message, it has the counts of `u` if `u` counts the
answer, those of `u` for the prompt and the estimate for the answer if it only counts the
prompt, and the estimates for both otherwise. Until the message is closed, and if the client
went away first, the relay has no usage. -/
theorem run_start_reports (actions : List (Action Chat.Chunk)) :
    let out := run actions (start model promptTokens now)
    (∀ reason, ending actions = .stopped reason → ∃ usage,
      closings out.2 = [(some reason, usage)] ∧ Relay.usage? out.1 = some usage ∧
        (∀ u, lastReport? (heard actions) = some u → 0 < u.completionTokens →
          usage = .of u.promptTokens u.completionTokens) ∧
        (∀ u, lastReport? (heard actions) = some u → u.completionTokens = 0 →
          0 < u.promptTokens → usage = .of u.promptTokens (answerEstimate now actions)) ∧
        ((∀ u, lastReport? (heard actions) = some u →
            u.completionTokens = 0 ∧ u.promptTokens = 0) →
          usage = .of promptTokens (answerEstimate now actions))) ∧
      ((∀ reason, ending actions ≠ .stopped reason) → Relay.usage? out.1 = none) := by
  intro out
  have hu := usage?_run_start model promptTokens now actions
  refine ⟨fun reason stopped => ?_, fun going => ?_⟩
  · have hl := taken_lastUsage model promptTokens now actions
    have he := taken_estimatedOutput model promptTokens now actions
    have hp : (taken model promptTokens now (inputs actions)).1.promptTokens = promptTokens := by
      rw [taken_fst, (atRest_opened model promptTokens now).feed_frame]
      rfl
    rw [stopped] at hu
    refine ⟨_, closings_run_start model promptTokens now stopped, hu, ?_, ?_, ?_⟩ <;>
      rw [finalUsage, hl, he, hp]
    · intro u hu counted
      simp only [hu, if_pos counted]
    · intro u hu uncounted prompted
      simp only [hu, uncounted, Nat.lt_irrefl, if_false, if_pos prompted]
    · intro silent
      cases hu : lastReport? (heard actions) with
      | none => rfl
      | some u => simp only [(silent u hu).1, (silent u hu).2, Nat.lt_irrefl, if_false]
  · cases he : ending actions with
    | none | left => rwa [he] at hu
    | stopped reason => exact absurd he (going reason)

end Runs

/-- A call is named, and has its last brace, when text has cut it short : both count. -/
example :
    let actions := [.accept (callChunk [⟨0, some "a", true, some (none, some "\x7b")⟩]),
      .accept (textChunk "x"),
      .accept (callChunk [⟨0, some "b", true, some (some "g", some "\x7d")⟩]), .finish]
    let counted := Tokens.estimate "x" + Tokens.estimate "tool_use:g:\x7b\x7d"
    Relay.usage? (run actions (start "m" 1 ⟨0⟩)).1 = some (.of 1 counted) := by
  decide +kernel

end Switchboard.Relay.Merging
