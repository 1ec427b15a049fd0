import Switchboard.Json.Parser
import Switchboard.Chat.Request
import Switchboard.Gemini.CallId
import Switchboard.Gemini.Request

/-!
# Chat completion requests as Gemini requests

The system texts make up the instruction. The other messages become the turns of the
user and of the model, neighbours of one role joined. The response to a function call
carries the name of the function, found by the call's id among the calls before it.
-/

namespace Switchboard

namespace Chat

open Gemini (InlineData Part.ofText Part.ofInlineData Part.ofCall Part.ofFunctionResponse)

/-- A text split at the first place where `mark` stands. -/
def splitAt? (mark : List Char) : List Char → Option (List Char × List Char)
  | [] => if mark.isEmpty then some ([], []) else none
  | c :: cs =>
    if mark.isPrefixOf (c :: cs) then some ([], (c :: cs).drop mark.length)
    else (splitAt? mark cs).map fun (a, b) => (c :: a, b)

/-- The data that a data address carries. -/
def inlineData? (url : String) : Option InlineData :=
  let cs := url.toList
  if "data:".toList.isPrefixOf cs then
    (splitAt? ";base64,".toList (cs.drop 5)).map fun (a, b) =>
      ⟨String.ofList a, String.ofList b⟩
  else none

/-- A text, or an image that is carried in line. -/
def Part.toGemini? : Part → Option Gemini.Part
  | .text s => some (.ofText s)
  | .image url _ => (inlineData? url).map .ofInlineData

/-- The parts of a user's message. -/
def Message.userParts (m : Message) : List Gemini.Part :=
  match m.content with
  | none => []
  | some (.text s) => [.ofText s]
  | some (.parts ps) => ps.filterMap Part.toGemini?

/-- The call for Gemini. Arguments that are no JSON text are the empty object. -/
def ToolCall.toGemini (c : ToolCall) : Gemini.FunctionCall :=
  ⟨c.name, (Json.parseSorted? c.arguments).getD (.object [])⟩

/-- The parts of a message of the model: its text, then its calls. -/
def Message.modelParts (m : Message) : List Gemini.Part :=
  (if m.textContent.isEmpty then [] else [.ofText m.textContent]) ++
    (m.toolCalls.getD []).map fun c => .ofCall c.toGemini

/-- Names of functions by the ids of their calls, latest first. -/
abbrev CallNames := List (String × String)

/-- The calls of a message, latest first. -/
def Message.callNames (m : Message) : CallNames :=
  ((m.toolCalls.getD []).map fun c => (c.id, c.name)).reverse

/-- The response to a call. A text that is no JSON object is wrapped in one. -/
def Message.functionResponse (m : Message) (names : CallNames) : Gemini.FunctionResponse :=
  let text := m.textContent
  let id := m.toolCallId.getD ""
  { name := (names.lookup id).getD (Gemini.functionName id)
    response := match Json.parseSorted? text with
      | some (.object members) => .object members
      | _ => .object [("content", .string text)] }

/-- The side of a message in a conversation with Gemini, and its parts. -/
def Message.turn? (m : Message) (names : CallNames) : Option (String × List Gemini.Part) :=
  match m.role with
  | .system => none
  | .user => some ("user", m.userParts)
  | .assistant => some ("model", m.modelParts)
  | .tool => some ("user", [.ofFunctionResponse (m.functionResponse names)])

/-- The turns of the messages that have parts. Calls of the assistant are known to the
messages behind it. -/
def turns : List Message → CallNames → List (String × List Gemini.Part)
  | [], _ => []
  | m :: rest, names =>
    let later := turns rest (if m.role = .assistant then m.callNames ++ names else names)
    match m.turn? names with
    | some (side, parts) => if parts.isEmpty then later else (side, parts) :: later
    | none => later

/-- Join neighbouring turns of one side. -/
def joinTurns : List (String × List Gemini.Part) → List (String × List Gemini.Part)
  | [] => []
  | (side, parts) :: rest =>
    match joinTurns rest with
    | (next, more) :: later =>
      if side = next then (side, parts ++ more) :: later
      else (side, parts) :: (next, more) :: later
    | [] => [(side, parts)]

/-- The system texts that are not empty. -/
def systemTexts (messages : List Message) : List String :=
  (messages.filter fun m => m.role = .system && !m.textContent.isEmpty).map (·.textContent)

end Chat

namespace Gemini

/-- The keywords of a schema that Gemini refuses. -/
def refusedKeywords : List String := ["$schema", "additionalProperties", "default"]

mutual

/-- A schema without the refused keywords, at any depth. -/
def cleanSchema : Json → Json
  | .object members => .object (cleanMembers members)
  | .array items => .array (cleanItems items)
  | other => other

/-- The members without those whose key is refused, whatever the object that they are in is for. -/
def cleanMembers : List (String × Json) → List (String × Json)
  | [] => []
  | (key, value) :: rest =>
    if refusedKeywords.contains key then cleanMembers rest
    else (key, cleanSchema value) :: cleanMembers rest

/-- The items of an array of a schema, each of them cleaned. -/
def cleanItems : List Json → List Json
  | [] => []
  | item :: rest => cleanSchema item :: cleanItems rest

end

end Gemini

namespace Chat

/-- The function for Gemini. Parameters that are null are left out. -/
def Tool.toGemini (t : Tool) : Gemini.FunctionDeclaration :=
  ⟨t.name, t.description,
    if t.parameters.isNull then none else some (Gemini.cleanSchema t.parameters)⟩

/-- The calling mode that a choice amounts to. -/
def ToolChoice.toGemini : ToolChoice → Gemini.CallingMode
  | .auto => .auto
  | .required => .any Option.none
  | .none => .none
  | .named name => .any (some [name])

/-- The request for Gemini. -/
def Request.toGemini (r : Request) : Gemini.Request :=
  let system := systemTexts r.messages
  { contents := (joinTurns (turns r.messages [])).map fun (side, parts) => ⟨some side, parts⟩
    systemInstruction := if system.isEmpty then none else some ⟨none, system.map .ofText⟩
    generationConfig := ⟨r.temperature, r.topP, r.maxTokens, r.stop⟩
    tools := (r.tools.filter fun tools => !tools.isEmpty).map fun tools => tools.map Tool.toGemini
    callingMode := r.toolChoice.map ToolChoice.toGemini }

end Chat

end Switchboard
