import Switchboard.Json.Record

/-!
# Gemini requests

The contents of a conversation with Gemini alternate between the user and the model.
A part is a text, an image in line, a function call or the response to one.
-/

namespace Switchboard.Gemini

open Json

/-- Data of an image, in base 64, and its media type. -/
structure InlineData where
  mimeType : String
  data : String
  deriving DecidableEq, Repr

/-- A call of a function, which has no id. -/
structure FunctionCall where
  name : String
  args : Json
  deriving DecidableEq, Repr

/-- What a function returned. It goes with a call by the name of the function. -/
structure FunctionResponse where
  name : String
  response : Json
  deriving DecidableEq, Repr

/-- A part carries one of its fields; `thought` marks a text as reasoning. -/
structure Part where
  text : Option String
  thought : Option Bool
  inlineData : Option InlineData
  functionCall : Option FunctionCall
  functionResponse : Option FunctionResponse
  deriving DecidableEq, Repr

namespace Part

/-- A part that is a text. -/
def ofText (s : String) : Part := ⟨some s, none, none, none, none⟩

/-- A part that is an image. -/
def ofInlineData (d : InlineData) : Part := ⟨none, none, some d, none, none⟩

/-- A part that is a call. -/
def ofCall (c : FunctionCall) : Part := ⟨none, none, none, some c, none⟩

/-- A part that responds to a call. -/
def ofFunctionResponse (r : FunctionResponse) : Part := ⟨none, none, none, none, some r⟩

end Part

/-- Parts of one side of the conversation. System instructions have no role. -/
structure Content where
  role : Option String
  parts : List Part
  deriving DecidableEq, Repr

/-- How an answer is to be generated. What is absent is left to the provider. -/
structure GenerationConfig where
  temperature : Option Real32
  topP : Option Real32
  maxOutputTokens : Option Nat
  stopSequences : Option (List String)
  deriving DecidableEq, Repr

/-- A function that the model may call, and a schema of its arguments. -/
structure FunctionDeclaration where
  name : String
  description : Option String
  parameters : Option Json
  deriving DecidableEq, Repr

/-- Whether the model must call a function, and which ones it may call. -/
inductive CallingMode where
  | none
  | auto
  | any (allowed : Option (List String))
  deriving DecidableEq, Repr

/-- A request : the conversation, the instructions and the functions to call. -/
structure Request where
  contents : List Content
  systemInstruction : Option Content
  generationConfig : GenerationConfig
  tools : Option (List FunctionDeclaration)
  callingMode : Option CallingMode
  deriving DecidableEq, Repr

/-! ## Reading -/

/-- Read an image. Both fields must be there. -/
def InlineData.ofJson? (v : Json) : Option InlineData := do
  let r ← record? ["mimeType", "data"] v
  return ⟨← r.required "mimeType" string?, ← r.required "data" string?⟩

/-- Read a call. Arguments that are absent are null. -/
def FunctionCall.ofJson? (v : Json) : Option FunctionCall := do
  let r ← record? ["name", "args"] v
  return ⟨← r.required "name" string?, ← r.orDefault "args" .null free?⟩

/-- Read a response. Both fields must be there. -/
def FunctionResponse.ofJson? (v : Json) : Option FunctionResponse := do
  let r ← record? ["name", "response"] v
  return ⟨← r.required "name" string?, ← r.required "response" free?⟩

/-- Read a part. It may carry several of its fields, or none. -/
def Part.ofJson? (v : Json) : Option Part := do
  let r ← record? ["text", "thought", "inlineData", "functionCall", "functionResponse"] v
  return {
    text := ← r.optional "text" string?
    thought := ← r.optional "thought" bool?
    inlineData := ← r.optional "inlineData" InlineData.ofJson?
    functionCall := ← r.optional "functionCall" FunctionCall.ofJson?
    functionResponse := ← r.optional "functionResponse" FunctionResponse.ofJson? }

/-- Read the parts of one side. They may be absent. -/
def Content.ofJson? (v : Json) : Option Content := do
  let r ← record? ["role", "parts"] v
  return ⟨← r.optional "role" string?, ← r.orDefault "parts" [] (listOf? Part.ofJson?)⟩

/-! ## Writing -/

/-- Write an image. -/
def InlineData.toJson (d : InlineData) : Json := ofFields
  [field "mimeType" (.string d.mimeType), field "data" (.string d.data)]

/-- Write a call. -/
def FunctionCall.toJson (c : FunctionCall) : Json := ofFields
  [field "name" (.string c.name), field "args" c.args]

/-- Write a response to a call. -/
def FunctionResponse.toJson (r : FunctionResponse) : Json := ofFields
  [field "name" (.string r.name), field "response" r.response]

/-- Write a part, with the fields that are there. -/
def Part.toJson (p : Part) : Json := ofFields
  [fieldIf "text" .string p.text, fieldIf "thought" .bool p.thought,
    fieldIf "inlineData" InlineData.toJson p.inlineData,
    fieldIf "functionCall" FunctionCall.toJson p.functionCall,
    fieldIf "functionResponse" FunctionResponse.toJson p.functionResponse]

/-- Write the parts of one side, and which side it is, if that is known. -/
def Content.toJson (c : Content) : Json := ofFields
  [fieldIf "role" .string c.role, field "parts" (Json.ofList Part.toJson c.parts)]

/-- Write how to generate, with the fields that are there. -/
def GenerationConfig.toJson (c : GenerationConfig) : Json := ofFields
  [fieldIf "temperature" ofReal32 c.temperature, fieldIf "topP" ofReal32 c.topP,
    fieldIf "maxOutputTokens" .nat c.maxOutputTokens,
    fieldIf "stopSequences" (Json.ofList .string) c.stopSequences]

/-- Write a function. One without a schema has no `parameters`. -/
def FunctionDeclaration.toJson (d : FunctionDeclaration) : Json := ofFields
  [field "name" (.string d.name), fieldIf "description" .string d.description,
    fieldIf "parameters" id d.parameters]

/-- Write the mode, by its name in capitals. -/
def CallingMode.toJson : CallingMode → Json
  | .none => ofFields [field "mode" (.string "NONE")]
  | .auto => ofFields [field "mode" (.string "AUTO")]
  | .any allowed => ofFields
    [field "mode" (.string "ANY"), fieldIf "allowedFunctionNames" (Json.ofList .string) allowed]

/-- Write a request. All functions are declared in one tool, and the calling mode is two objects
deep. -/
def Request.toJson (r : Request) : Json := ofFields
  [field "contents" (Json.ofList Content.toJson r.contents),
    fieldIf "systemInstruction" Content.toJson r.systemInstruction,
    field "generationConfig" r.generationConfig.toJson,
    fieldIf "tools" (fun ds => .array
      [ofFields [field "functionDeclarations" (Json.ofList FunctionDeclaration.toJson ds)]])
      r.tools,
    fieldIf "toolConfig" (fun mode => ofFields [field "functionCallingConfig" mode.toJson])
      r.callingMode]

end Switchboard.Gemini
