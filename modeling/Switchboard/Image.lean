import Switchboard.Json.Record

/-!
# Image generation

A request for images that show what a prompt says, and where the images are.
-/

namespace Switchboard.Image

open Json

/-- A request for so many images of a size. -/
structure Request where
  model : String
  prompt : String
  count : Nat
  size : Option String
  deriving DecidableEq, Repr

/-- An image, at an address or in line. -/
structure Picture where
  url : Option String
  base64 : Option String
  deriving DecidableEq, Repr

/-- The images, and the second in which they were made. -/
structure Response where
  created : Nat
  data : List Picture
  deriving DecidableEq, Repr

/-- Read a request. Only the size may be absent. -/
def Request.ofJson? (v : Json) : Option Request := do
  let r ← record? ["model", "prompt", "n", "size"] v
  return ⟨← r.required "model" string?, ← r.required "prompt" string?,
    ← r.required "n" u32?, ← r.optional "size" string?⟩

/-- Read an image. It may have neither an address nor data. -/
def Picture.ofJson? (v : Json) : Option Picture := do
  let r ← record? ["url", "b64_json"] v
  return ⟨← r.optional "url" string?, ← r.optional "b64_json" string?⟩

/-- Read an answer. Neither field has to be there. -/
def Response.ofJson? (v : Json) : Option Response := do
  let r ← record? ["created", "data"] v
  return ⟨← r.orDefault "created" 0 u64?, ← r.orDefault "data" [] (listOf? Picture.ofJson?)⟩

/-- Write a request. -/
def Request.toJson (r : Request) : Json := ofFields
  [field "model" (.string r.model), field "prompt" (.string r.prompt), field "n" (.nat r.count),
    fieldIf "size" .string r.size]

/-- Write an image, with the fields that are there. -/
def Picture.toJson (p : Picture) : Json := ofFields
  [fieldIf "url" .string p.url, fieldIf "b64_json" .string p.base64]

/-- Write an answer. -/
def Response.toJson (r : Response) : Json := ofFields
  [field "created" (.nat r.created), field "data" (Json.ofList Picture.toJson r.data)]

instance : Codec Request := ⟨Request.ofJson?, Request.toJson⟩

instance : Codec Response := ⟨Response.ofJson?, Response.toJson⟩

end Switchboard.Image
