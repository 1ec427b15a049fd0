import Mathlib.Data.List.Forall2
import Switchboard.Proofs.Conversion.FunctionNames
import Switchboard.Proofs.Conversion.Streaming
import Switchboard.Proofs.Json.Opening

/-!
# Inputs of tool uses

Each call of an answer becomes a tool use, in order. What its arguments say becomes the input :
a text that cannot be read becomes the empty object, and any other value is taken over, object
or not (`isObject_parseArguments`). So the input is an object if and only if the arguments
cannot be read or begin with a brace (`Chat.Invokes`).

The arguments of a call of Gemini are written and then read again, which keeps what is an object
and what is not (`Gemini.Invokes`). A call without arguments has the input null.

`toClaude_inputs` says so of all answers.
-/

namespace Switchboard

namespace Json

theorem isObject_sorted (v : Json) : v.sorted.isObject = v.isObject := by
  cases v <;> rfl

end Json

namespace Chat

/-- The calls of the first choice. -/
def Response.calls (r : Response) : List ToolCall := (r.choices.head?.map (·.message.calls)).getD []

/-- A tool use stands for a call. Its input is an object if and only if the arguments are no JSON
text or begin with a brace. -/
structure Invokes (call : ToolCall) (use : Claude.Use) : Prop where
  id : use.id = call.id
  name : use.name = call.name
  object : use.input.isObject = true ↔
    Json.parse? call.arguments = none ∨ Json.opensObject call.arguments = true

theorem isObject_parseArguments (arguments : String) : (parseArguments arguments).isObject = true ↔
    Json.parse? arguments = none ∨ Json.opensObject arguments = true := by
  rw [Relay.Merging.parseArguments_eq]
  cases h : Json.parse? arguments with
  | none => simp [Json.isObject]
  | some v => simp [Json.isObject_sorted, Json.isObject_of_parse? h]

/-- Texts are no tool uses. -/
theorem use?_of_mem_textBlocks {content : Content} {b : Claude.Block}
    (hb : b ∈ content.textBlocks) : b.use? = none := by
  cases content with
  | text s =>
    simp only [Content.textBlocks] at hb
    split at hb
    · cases hb
    · obtain rfl := List.mem_singleton.mp hb
      rfl
  | parts ps =>
    obtain ⟨part, -, hb⟩ := List.mem_filterMap.mp hb
    cases part with
    | text s =>
      obtain ⟨-, hb⟩ := Option.ite_none_left_eq_some.mp hb
      obtain rfl := Option.some.inj hb
      rfl
    | image location detail => cases hb

theorem uses_blocks (c : Choice) : c.blocks.filterMap Claude.Block.use? =
    c.message.calls.map fun call => ⟨call.id, call.name, parseArguments call.arguments⟩ := by
  have texts : (if c.finishReason = some .length ∧ c.message.textContent.isEmpty then
      [.plain truncationNotice]
      else (c.message.content.map Content.textBlocks).getD []).filterMap Claude.Block.use? =
        [] := by
    split
    · rfl
    · cases c.message.content with
      | none => rfl
      | some content => exact List.filterMap_eq_nil_iff.mpr fun b => use?_of_mem_textBlocks
  rw [Choice.blocks, List.filterMap_append, texts, List.nil_append, List.filterMap_map]
  exact congrFun List.filterMap_eq_map _

variable [Tokenizer]

theorem Response.uses_toClaude (r : Response) : r.toClaude.content.filterMap Claude.Block.use? =
    r.calls.map fun call => ⟨call.id, call.name, parseArguments call.arguments⟩ := by
  rw [toClaude, calls]
  cases r.choices.head? with
  | none => rfl
  | some c => exact uses_blocks c

end Chat

namespace Gemini

/-- A tool use stands for the call at a place. Its input is an object if and only if the arguments
are one, or cannot be read back. -/
structure Invokes (call : FunctionCall × Nat) (use : Claude.Use) : Prop where
  id : use.id = callId call.1.name call.2
  name : use.name = call.1.name
  object : use.input.isObject = true ↔
    call.1.args.isObject = true ∨ Json.parse? call.1.args.render = none

theorem calls_toChat (g : Response) (model : String) (now : Instant) : (g.toChat model now).calls =
    g.calls.zipIdx.map fun (call, i) => ⟨callId call.name i, call.name, call.args.render⟩ := by
  rw [Response.toChat, Chat.Response.calls, Response.calls, Response.parts]
  cases g.candidates with
  | nil => rfl
  | cons c rest =>
    show c.toChoice.message.calls = c.calls.zipIdx.map _
    rw [Candidate.toChoice, Chat.Message.calls, numberCalls, List.map_map]
    cases c.calls <;> rfl

/-- Arguments that are written and read again. -/
theorem isObject_parseArguments_render (args : Json) :
    (Chat.parseArguments args.render).isObject = true ↔
      args.isObject = true ∨ Json.parse? args.render = none := by
  rw [Chat.isObject_parseArguments, Json.opensObject_render, or_comm]

end Gemini

/-- The tool uses of the message that an answer becomes stand for the calls of the answer, one for
each and in their order. -/
theorem toClaude_inputs [Tokenizer] :
    (∀ r : Chat.Response,
      List.Forall₂ Chat.Invokes r.calls (r.toClaude.content.filterMap Claude.Block.use?)) ∧
    ∀ (g : Gemini.Response) (model : String) (now : Instant),
      List.Forall₂ Gemini.Invokes g.calls.zipIdx
        ((g.toChat model now).toClaude.content.filterMap Claude.Block.use?) := by
  refine ⟨fun r => ?_, fun g model now => ?_⟩
  · rw [r.uses_toClaude, List.forall₂_map_right_iff]
    exact List.forall₂_same.mpr fun call _ =>
      ⟨rfl, rfl, Chat.isObject_parseArguments call.arguments⟩
  · rw [Chat.Response.uses_toClaude, Gemini.calls_toChat, List.map_map, List.forall₂_map_right_iff]
    exact List.forall₂_same.mpr fun (call, i) _ =>
      ⟨rfl, rfl, Gemini.isObject_parseArguments_render call.args⟩

/-- An answer with a call whose arguments are a list. -/
def listed : Chat.Response where
  id := "1"
  object := "chat.completion"
  created := 0
  model := "m"
  choices := [⟨0, ⟨.assistant, none, some [⟨"a", "f", "[1]"⟩], none, none⟩, some .toolCalls⟩]
  usage := none

/-- The body of an answer of Gemini with a call that has no arguments. -/
def bare : Json := .object [("candidates", .array [.object [("content", .object [("parts",
  .array [.object [("functionCall", .object [("name", .string "f")])]])])]])]

/-- A list stays a list, and what is missing becomes null. -/
theorem toClaude_inputs_listed_bare :
    (listed.toClaude.content.filterMap Claude.Block.use?).map (·.input) = [.array [.nat 1]] ∧
      (Gemini.Response.ofJson? bare).map (fun g =>
        ((g.toChat "m" ⟨0⟩).toClaude.content.filterMap Claude.Block.use?).map (·.input)) =
      some [.null] := by
  decide +kernel

end Switchboard
