import Switchboard.Chat.Response

/-!
# Embeddings

A request for the vectors of one text or of several, and the vectors.
-/

namespace Switchboard.Embedding

open Json

/-- One text, or a batch of them. -/
inductive Input where
  | single (text : String)
  | batch (texts : List String)
  deriving DecidableEq, Repr

/-- A request for the vectors of an input. -/
structure Request where
  model : String
  input : Input
  deriving DecidableEq, Repr

/-- The vector of the text at a place of the input. -/
structure Vector where
  index : Nat
  embedding : List Real32
  deriving DecidableEq, Repr

/-- The vectors of an input. -/
structure Response where
  object : String
  data : List Vector
  model : String
  usage : Option Chat.Usage
  deriving DecidableEq, Repr

/-- Read an input, which is a text or an array of texts. -/
def Input.ofJson? (v : Json) : Option Input :=
  match v with
  | .string s => some (.single s)
  | v => (listOf? string? v).map .batch

/-- Read a request. Both fields must be there. -/
def Request.ofJson? (v : Json) : Option Request := do
  let r ← record? ["model", "input"] v
  return ⟨← r.required "model" string?, ← r.required "input" Input.ofJson?⟩

/-- Read a vector. Its place is zero, and it is empty, where that is absent. -/
def Vector.ofJson? (v : Json) : Option Vector := do
  let r ← record? ["index", "embedding"] v
  return ⟨← r.orDefault "index" 0 u32?, ← r.orDefault "embedding" [] (listOf? real32?)⟩

/-- Read an answer. No field has to be there. -/
def Response.ofJson? (v : Json) : Option Response := do
  let r ← record? ["object", "data", "model", "usage"] v
  return ⟨← r.orDefault "object" "" string?, ← r.orDefault "data" [] (listOf? Vector.ofJson?),
    ← r.orDefault "model" "" string?, ← r.optional "usage" Chat.Usage.ofJson?⟩

/-- Write an input. -/
def Input.toJson : Input → Json
  | .single s => .string s
  | .batch ss => Json.ofList .string ss

/-- Write a request. -/
def Request.toJson (r : Request) : Json := ofFields
  [field "model" (.string r.model), field "input" r.input.toJson]

/-- Write a vector. -/
def Vector.toJson (v : Vector) : Json := ofFields
  [field "index" (.nat v.index), field "embedding" (Json.ofList ofReal32 v.embedding)]

/-- Write an answer, with null for usage that it lacks. -/
def Response.toJson (r : Response) : Json := ofFields
  [field "object" (.string r.object), field "data" (Json.ofList Vector.toJson r.data),
    field "model" (.string r.model), field "usage" (orNull Chat.Usage.toJson r.usage)]

instance : Codec Request := ⟨Request.ofJson?, Request.toJson⟩

instance : Codec Response := ⟨Response.ofJson?, Response.toJson⟩

end Switchboard.Embedding
