import Switchboard.Gemini.Request

/-!
# Gemini responses

The body of an answer, and of each event of a streamed one.
-/

namespace Switchboard.Gemini

open Json

/-- How many tokens the prompt and the candidates have. -/
structure UsageMetadata where
  promptTokenCount : Nat
  candidatesTokenCount : Nat
  totalTokenCount : Nat
  deriving DecidableEq, Repr

/-- One of the answers to choose from. Its content may be missing. -/
structure Candidate where
  content : Option Content
  finishReason : Option String
  index : Nat
  deriving DecidableEq, Repr

/-- The body of an answer, or of an event of a streamed one. -/
structure Response where
  candidates : List Candidate
  usageMetadata : Option UsageMetadata
  modelVersion : Option String
  responseId : Option String
  deriving DecidableEq, Repr

/-- Read the counts of tokens. One that is absent is zero. -/
def UsageMetadata.ofJson? (v : Json) : Option UsageMetadata := do
  let r ← record? ["promptTokenCount", "candidatesTokenCount", "totalTokenCount"] v
  return ⟨← r.orDefault "promptTokenCount" 0 u32?, ← r.orDefault "candidatesTokenCount" 0 u32?,
    ← r.orDefault "totalTokenCount" 0 u32?⟩

/-- Read a candidate. All of it may be absent. -/
def Candidate.ofJson? (v : Json) : Option Candidate := do
  let r ← record? ["content", "finishReason", "index"] v
  return ⟨← r.optional "content" Content.ofJson?, ← r.optional "finishReason" string?,
    ← r.orDefault "index" 0 u32?⟩

/-- Read a body. No field has to be there. -/
def Response.ofJson? (v : Json) : Option Response := do
  let r ← record? ["candidates", "usageMetadata", "modelVersion", "responseId"] v
  return {
    candidates := ← r.orDefault "candidates" [] (listOf? Candidate.ofJson?)
    usageMetadata := ← r.optional "usageMetadata" UsageMetadata.ofJson?
    modelVersion := ← r.optional "modelVersion" string?
    responseId := ← r.optional "responseId" string? }

end Switchboard.Gemini
