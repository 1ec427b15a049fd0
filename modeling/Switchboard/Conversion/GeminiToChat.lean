import Switchboard.Clock
import Switchboard.Json.Printer
import Switchboard.Chat.Chunk
import Switchboard.Gemini.CallId
import Switchboard.Gemini.Response

/-!
# Gemini answers as chat completions

Only the first candidate counts. The calls of an answer are numbered by position; in a
stream the numbers go on across events, since parallel calls may come in separate ones.
An answer with calls always finishes because of them.
-/

namespace Switchboard.Gemini

/-- Why Gemini stopped. -/
def finishReason (reason : String) (hasCalls : Bool) : Chat.FinishReason :=
  if hasCalls then .toolCalls
  else if reason == "MAX_TOKENS" then .length
  else if ["SAFETY", "RECITATION", "BLOCKLIST", "PROHIBITED_CONTENT", "SPII"].contains reason then
    .contentFilter
  else .stop

/-- The counts as usage of a chat completion. -/
def UsageMetadata.toChat (u : UsageMetadata) : Chat.Usage :=
  ⟨u.promptTokenCount, u.candidatesTokenCount, u.totalTokenCount⟩

/-- A text of a part that is no call, if it is reasoning or not as asked for. -/
def Part.textIf (reasoning : Bool) (p : Part) : Option String :=
  if p.functionCall.isSome then none
  else if (p.thought == some true) == reasoning then p.text else none

namespace Candidate

/-- The parts of the content, none if it is missing. -/
def parts (c : Candidate) : List Part := (c.content.map (·.parts)).getD []

/-- The texts that are not reasoning, joined. -/
def text (c : Candidate) : String := String.join (c.parts.filterMap (Part.textIf false))

/-- The texts that are reasoning, joined. -/
def reasoning (c : Candidate) : String := String.join (c.parts.filterMap (Part.textIf true))

/-- The calls among the parts, in their order. -/
def calls (c : Candidate) : List FunctionCall := c.parts.filterMap (·.functionCall)

end Candidate

/-- The calls with ids, numbered from `first`. -/
def numberCalls (first : Nat) (calls : List FunctionCall) : List (Nat × String × FunctionCall) :=
  (calls.zipIdx first).map fun (call, i) => (i, callId call.name i, call)

/-- The choice that a candidate amounts to. A text may be missing beside calls only. -/
def Candidate.toChoice (c : Candidate) : Chat.Choice :=
  let hasCalls := !c.calls.isEmpty
  let calls := (numberCalls 0 c.calls).map fun (_, id, call) =>
    (⟨id, call.name, call.args.render⟩ : Chat.ToolCall)
  { index := c.index
    message := {
      role := .assistant
      content := if !c.text.isEmpty || !hasCalls then some (.text c.text) else none
      toolCalls := if hasCalls then some calls else none
      toolCallId := none
      reasoningContent := if c.reasoning.isEmpty then none else some c.reasoning }
    finishReason := some (Gemini.finishReason (c.finishReason.getD "STOP") hasCalls) }

/-- The answer as a chat completion made now. -/
def Response.toChat (r : Response) (model : String) (now : Instant) : Chat.Response :=
  { id := r.responseId.getD now.completionId
    object := "chat.completion"
    created := now.seconds
    model := model
    choices := (r.candidates.take 1).map Candidate.toChoice
    usage := r.usageMetadata.map UsageMetadata.toChat }

/-- What a stream remembers: the model, and the number of the next call. -/
structure ChunkMapper where
  model : String
  nextCall : Nat
  deriving DecidableEq, Repr

namespace ChunkMapper

/-- Nothing has been called yet. -/
def start (model : String) : ChunkMapper := ⟨model, 0⟩

/-- The choice of a candidate in a stream. Once something was called, an end is one of calls. -/
def choice (m : ChunkMapper) (c : Candidate) : Chat.ChunkChoice × ChunkMapper :=
  let hasCalls := !c.calls.isEmpty
  let next := m.nextCall + c.calls.length
  let calls := (numberCalls m.nextCall c.calls).map fun (i, id, call) =>
    ({ index := i, id := some id, isFunction := true,
       function := some (some call.name, some call.args.render) } : Chat.ToolCallDelta)
  ({ index := c.index
     delta := {
       role := some .assistant
       content := if c.text.isEmpty then none else some c.text
       reasoningContent := if c.reasoning.isEmpty then none else some c.reasoning
       thinking := none
       toolCalls := if hasCalls then some calls else none }
     finishReason := c.finishReason.map fun reason =>
       Gemini.finishReason reason (hasCalls || 0 < next) },
    { m with nextCall := next })

/-- The chunk of one event. Usage counts once the answer is finished. -/
def map (m : ChunkMapper) (r : Response) (now : Instant) : Chat.Chunk × ChunkMapper :=
  let (choices, m) := match r.candidates with
    | [] => ([], m)
    | c :: _ => let (choice, m) := m.choice c; ([choice], m)
  let finished := choices.any fun c => c.finishReason.isSome
  ({ id := r.responseId.getD ""
     object := "chat.completion.chunk"
     created := now.seconds
     model := m.model
     choices := choices
     usage := if finished then r.usageMetadata.map UsageMetadata.toChat else none }, m)

/-- The chunks of a stream of events. -/
def mapAll (m : ChunkMapper) (now : Instant) : List Response → List Chat.Chunk
  | [] => []
  | r :: rest => let (chunk, m) := m.map r now; chunk :: mapAll m now rest

end ChunkMapper

end Switchboard.Gemini
