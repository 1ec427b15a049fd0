import Switchboard.Json.Record

/-!
# Content blocks

The unit of content in the Messages protocol: a message holds a list of blocks, and a
stream carries the blocks one after another. A block of a kind that is not modelled, or
with fields that do not fit its kind, is kept as the value it was.
-/

namespace Switchboard.Claude

open Json

/-- Where an image comes from. -/
inductive ImageSource where
  | base64 (mediaType data : String)
  | url (url : String)
  deriving DecidableEq, Repr

/-- A block of content. What is cited and cached is free, and so is what a tool takes and returns.
-/
inductive Block where
  | text (text : String) (citations cacheControl : Option Json)
  | image (source : ImageSource)
  | toolUse (id name : String) (input : Json)
  | toolResult (toolUseId : String) (content : Json) (isError : Option Bool)
  | thinking (thinking : String) (signature : Option String)
  | redactedThinking (data : String)
  | other (value : Json)
  deriving DecidableEq, Repr

/-- A block of text and nothing else. -/
def Block.plain (text : String) : Block := .text text none none

namespace ImageSource

/-- Read where an image comes from. There are no other places. -/
def ofJson? (v : Json) : Option ImageSource := do
  let (form, v) ← tagged? "type" ["base64", "url"] true v
  match form with
  | "base64" =>
    let r ← record? ["media_type", "data"] v
    return .base64 (← r.required "media_type" string?) (← r.required "data" string?)
  | _ =>
    let r ← record? ["url"] v
    return .url (← r.required "url" string?)

/-- Write where an image comes from. -/
def toJson : ImageSource → Json
  | base64 mediaType data => ofFields
    [field "type" (.string "base64"), field "media_type" (.string mediaType),
      field "data" (.string data)]
  | .url location => ofFields [field "type" (.string "url"), field "url" (.string location)]

end ImageSource

namespace Block

/-- The kinds that are modelled. -/
def forms : List String :=
  ["text", "image", "tool_use", "tool_result", "thinking", "redacted_thinking"]

/-- A block of a modelled kind with fields that fit it. -/
def ofForm? (form : String) (v : Json) : Option Block :=
  match form with
  | "text" => do
    let r ← record? ["text", "citations", "cache_control"] v
    return .text (← r.required "text" string?) (← r.optional "citations" free?)
      (← r.optional "cache_control" free?)
  | "image" => do
    let r ← record? ["source"] v
    return .image (← r.required "source" ImageSource.ofJson?)
  | "tool_use" => do
    let r ← record? ["id", "name", "input"] v
    return .toolUse (← r.orDefault "id" "" string?) (← r.orDefault "name" "" string?)
      (← r.orDefault "input" (.object []) free?)
  | "tool_result" => do
    let r ← record? ["tool_use_id", "content", "is_error"] v
    return .toolResult (← r.required "tool_use_id" string?) (← r.orDefault "content" .null free?)
      (← r.optional "is_error" bool?)
  | "thinking" => do
    let r ← record? ["thinking", "signature"] v
    return .thinking (← r.required "thinking" string?) (← r.optional "signature" string?)
  | "redacted_thinking" => do
    let r ← record? ["data"] v
    return .redactedThinking (← r.required "data" string?)
  | _ => none

/-- Read a block. Every value is one. -/
def ofJson (v : Json) : Block :=
  match (tagged? "type" forms true v).bind fun (form, rest) => ofForm? form rest with
  | some block => block
  | none => .other v.sorted

/-- Write a block, its kind first. -/
def toJson : Block → Json
  | .text s citations cacheControl => ofFields
    [field "type" (.string "text"), field "text" (.string s),
      fieldIf "citations" id citations, fieldIf "cache_control" id cacheControl]
  | image source => ofFields [field "type" (.string "image"), field "source" source.toJson]
  | toolUse id name input => ofFields
    [field "type" (.string "tool_use"), field "id" (.string id), field "name" (.string name),
      field "input" input]
  | toolResult toolUseId content isError => ofFields
    [field "type" (.string "tool_result"), field "tool_use_id" (.string toolUseId),
      field "content" content, fieldIf "is_error" .bool isError]
  | .thinking s signature => ofFields
    [field "type" (.string "thinking"), field "thinking" (.string s),
      fieldIf "signature" .string signature]
  | redactedThinking data => ofFields
    [field "type" (.string "redacted_thinking"), field "data" (.string data)]
  | other value => value

end Block

instance : Codec Block := ⟨fun v => some (Block.ofJson v), Block.toJson⟩

end Switchboard.Claude
