import Switchboard.Json.Record
import Switchboard.Text.Search

/-!
# Channels

A channel is a backend of some kind with a key, a status and the models it serves. Kinds
and statuses have stable codes.
-/

namespace Switchboard

open Json

/-- The kinds of backends. -/
inductive ChannelKind where
  | openAI
  | custom
  | anthropic
  | zhipu
  | ali
  | openRouter
  | gemini
  | deepseek
  | moonshot
  | mistral
  | groq
  | bedrock
  | ollama
  | vertexAI
  | siliconflow
  | xAI
  deriving DecidableEq, Repr

namespace ChannelKind

/-- The kinds with their names and codes. -/
def table : List (ChannelKind × String × Nat) :=
  [(openAI, "openai", 1), (custom, "custom", 8), (anthropic, "anthropic", 14),
    (zhipu, "zhipu", 16), (ali, "ali", 17), (openRouter, "openrouter", 20),
    (gemini, "gemini", 25), (deepseek, "deepseek", 28), (moonshot, "moonshot", 29),
    (mistral, "mistral", 30), (groq, "groq", 31), (bedrock, "bedrock", 32),
    (ollama, "ollama", 39), (vertexAI, "vertexai", 42), (siliconflow, "siliconflow", 45),
    (xAI, "xai", 56)]

/-- The name of a kind in configurations. -/
def name (k : ChannelKind) : String := ((table.lookup k).map (·.1)).getD ""

/-- The number of a kind. -/
def code (k : ChannelKind) : Nat := ((table.lookup k).map (·.2)).getD 0

/-- The kind with a name. -/
def ofName? (s : String) : Option ChannelKind := (table.find? fun e => e.2.1 == s).map (·.1)

/-- Read a kind, where some values beside its name count as nothing. -/
def read? (isNothing : Json → Bool) (v : Json) : Option ChannelKind := do
  ofName? (← name? isNothing (table.map fun e => e.2.1) v)

end ChannelKind

/-- Whether a channel takes part, and who took it out if it does not. -/
inductive ChannelStatus where
  | unknown
  | enabled
  | manuallyDisabled
  | autoDisabled
  deriving DecidableEq, Repr

namespace ChannelStatus

/-- The name of a status in configurations. -/
def name : ChannelStatus → String
  | unknown => "unknown"
  | enabled => "enabled"
  | manuallyDisabled => "manually_disabled"
  | autoDisabled => "auto_disabled"

/-- The number of a status. -/
def code : ChannelStatus → Nat
  | unknown => 0
  | enabled => 1
  | manuallyDisabled => 2
  | autoDisabled => 3

/-- Every status, in the order of the numbers. -/
def all : List ChannelStatus := [unknown, enabled, manuallyDisabled, autoDisabled]

/-- The status with a name. -/
def ofName? (s : String) : Option ChannelStatus := all.find? fun t => t.name == s

/-- Read a status, where some values beside its name count as nothing. -/
def read? (isNothing : Json → Bool) (v : Json) : Option ChannelStatus := do
  ofName? (← name? isNothing (all.map name) v)

end ChannelStatus

/-- A backend. Without models of its own it serves every model. -/
structure Channel where
  id : Nat
  name : String
  kind : ChannelKind
  key : String
  baseUrl : Option String
  status : ChannelStatus
  weight : Nat
  testModel : Option String
  models : List String
  deriving DecidableEq, Repr

namespace Channel

/-- Whether the channel takes part. -/
def isEnabled (c : Channel) : Bool := c.status = .enabled

/-- Whether the channel serves a model. -/
def serves (c : Channel) (model : String) : Bool := c.models.isEmpty || c.models.contains model

/-- The parts of the key. -/
def keyParts (c : Channel) : List String := Text.split '|' c.key

/-- The fields of a channel, in the order in which they are written. -/
def fieldNames : List String :=
  ["id", "name", "type", "key", "base_url", "status", "weight", "test_model", "models"]

/-- A channel, with no fields but the known ones; some values beside the names of its
kind and its status count as nothing. -/
def read? (isNothing : Json → Bool) (v : Json) : Option Channel := do
  let r ← closedRecord? fieldNames v
  return {
    id := ← r.required "id" u64?
    name := ← r.required "name" string?
    kind := ← r.required "type" (ChannelKind.read? isNothing)
    key := ← r.required "key" string?
    baseUrl := ← r.optional "base_url" string?
    status := ← r.orDefault "status" .enabled (ChannelStatus.read? isNothing)
    weight := ← r.orDefault "weight" 0 u32?
    testModel := ← r.optional "test_model" string?
    models := ← r.orDefault "models" [] (listOf? string?) }

/-- Read a channel, where only null beside a name counts as nothing. -/
def ofJson? (v : Json) : Option Channel := read? isNull v

/-- Write a channel, with null for what it lacks. -/
def toJson (c : Channel) : Json := .object
  [("id", .nat c.id), ("name", .string c.name), ("type", .string c.kind.name),
    ("key", .string c.key), ("base_url", orNull .string c.baseUrl),
    ("status", .string c.status.name), ("weight", .nat c.weight),
    ("test_model", orNull .string c.testModel), ("models", Json.ofList .string c.models)]

end Channel

end Switchboard
