import Switchboard.Conversion.ChatToGemini
import Switchboard.Proofs.Json.Sorted

/-!
# Schemas of tools for Gemini

Gemini refuses some keywords in the schema of a function, and cleaning takes every member with
such a key out of the schema, at any depth. What is left stays in its place
(`schemaAt?_cleanSchema`) : a schema inside the schema of a tool is found in the cleaned one where
it was, cleaned as well, unless a refused word is on the way to it.

That a word is a keyword in one place and the name of a parameter in another makes no
difference to cleaning. `Tool.toGemini_parameterNames` : of the parameters that a schema declares,
the cleaned one declares those whose names are no refused words, and all of them only if no
parameter has such a name. A parameter called `default` is lost (`toGemini_loses_default`).
-/

namespace Switchboard

namespace Gemini

open Json

/-! ## Cleaned values -/

theorem cleanMembers_eq (members : List (String × Json)) :
    cleanMembers members = (members.filter fun m => !refusedKeywords.contains m.1).map
      fun m => (m.1, cleanSchema m.2) := by
  induction members with
  | nil => rfl
  | cons m rest ih =>
    obtain ⟨key, value⟩ := m
    rw [cleanMembers, ih, List.filter_cons]
    cases refusedKeywords.contains key <;> rfl

theorem cleanItems_eq (items : List Json) : cleanItems items = items.map cleanSchema := by
  induction items with
  | nil => rfl
  | cons item rest ih => rw [cleanItems, ih, List.map_cons]

theorem get?_cleanSchema (v : Json) (key : String) : (cleanSchema v).get? key =
    if key ∈ refusedKeywords then none else (v.get? key).map cleanSchema := by
  cases v with
  | object members =>
    rw [cleanSchema, cleanMembers_eq, get?, lookup_map_snd,
      lookup_filter (fun key => !refusedKeywords.contains key)]
    by_cases refused : key ∈ refusedKeywords <;> simp [refused, get?]
  | _ => exact (ite_self _).symm

theorem item?_cleanSchema (v : Json) (i : Nat) :
    (cleanSchema v).item? i = (v.item? i).map cleanSchema := by
  cases v with
  | array items => rw [cleanSchema, cleanItems_eq, item?, item?, List.getElem?_map]
  | _ => rfl

/-! ## Places in a schema -/

/-- A step from a schema to one that is a part of it : the value of a keyword, one of the values
that a keyword lists, or the one that a keyword declares under a name. -/
inductive SchemaStep where
  | inside (keyword : String)
  | listed (keyword : String) (i : Nat)
  | declared (keyword name : String)
  deriving DecidableEq, Repr

namespace SchemaStep

/-- Where a step leads, if it leads anywhere. -/
def of? : SchemaStep → Json → Option Json
  | inside keyword, v => v.get? keyword
  | listed keyword i, v => (v.get? keyword).bind (item? i)
  | declared keyword name, v => (v.get? keyword).bind (get? name)

/-- The words that a step passes. -/
def words : SchemaStep → List String
  | inside keyword | listed keyword _ => [keyword]
  | declared keyword name => [keyword, name]

/-- No word on the way is refused. -/
def IsSpared (step : SchemaStep) : Prop := ∀ word ∈ step.words, word ∉ refusedKeywords

instance (step : SchemaStep) : Decidable step.IsSpared :=
  inferInstanceAs (Decidable (∀ word ∈ step.words, word ∉ refusedKeywords))

theorem of?_cleanSchema (step : SchemaStep) (v : Json) : step.of? (cleanSchema v) =
    if step.IsSpared then (step.of? v).map cleanSchema else none := by
  cases step with
  | inside keyword =>
    by_cases refused : keyword ∈ refusedKeywords <;>
      simp [of?, IsSpared, words, get?_cleanSchema, refused]
  | listed keyword i =>
    by_cases refused : keyword ∈ refusedKeywords
    · simp [of?, IsSpared, words, get?_cleanSchema, refused]
    · cases h : v.get? keyword <;>
        simp [of?, IsSpared, words, get?_cleanSchema, refused, h, item?_cleanSchema]
  | declared keyword name =>
    by_cases refused : keyword ∈ refusedKeywords
    · simp [of?, IsSpared, words, get?_cleanSchema, refused]
    · by_cases refused' : name ∈ refusedKeywords <;> cases h : v.get? keyword <;>
        simp [of?, IsSpared, words, get?_cleanSchema, refused, refused', h]

end SchemaStep

/-- The schema at a place inside a schema. -/
def schemaAt? : List SchemaStep → Json → Option Json
  | [], v => some v
  | step :: place, v => (step.of? v).bind (schemaAt? place)

/-- What is at a place of the cleaned schema is what was there, cleaned. -/
theorem schemaAt?_cleanSchema (place : List SchemaStep) (v : Json) :
    schemaAt? place (cleanSchema v) =
      if ∀ step ∈ place, step.IsSpared then (schemaAt? place v).map cleanSchema else none := by
  induction place generalizing v with
  | nil => simp [schemaAt?]
  | cons step place ih =>
    rw [schemaAt?, schemaAt?, step.of?_cleanSchema]
    by_cases spared : step.IsSpared
    · cases h : step.of? v <;> simp [spared, ih]
    · simp [spared]

/-! ## Parameters -/

/-- The names of the parameters that a schema declares. -/
def parameterNames? (schema : Json) : Option (List String) :=
  (schema.get? "properties").bind fun declared => declared.object?.map (·.map (·.1))

theorem parameterNames?_cleanSchema (schema : Json) : parameterNames? (cleanSchema schema) =
    (parameterNames? schema).map (·.filter (· ∉ refusedKeywords)) := by
  have spared : "properties" ∉ refusedKeywords := by decide
  rw [parameterNames?, parameterNames?, get?_cleanSchema, if_neg spared]
  cases schema.get? "properties" with
  | none => rfl
  | some declared =>
    cases declared with
    | object members =>
      have names : (cleanMembers members).map (·.1) =
          (members.map (·.1)).filter (· ∉ refusedKeywords) := by
        rw [cleanMembers_eq, List.map_map, List.filter_map]
        simp [Function.comp_def]
      simp [cleanSchema, object?, names]
    | _ => rfl

end Gemini

namespace Chat

open Gemini (SchemaStep schemaAt? parameterNames? refusedKeywords)

/-- A schema inside the schema of a tool is where it was, cleaned, if no refused word is on the
way to it. Else it is gone. -/
theorem Tool.schemaAt?_toGemini {t : Tool} {place : List SchemaStep} {schema : Json}
    (found : schemaAt? place t.parameters = some schema) (notNull : schema ≠ .null) :
    t.toGemini.parameters.bind (schemaAt? place) =
      if ∀ step ∈ place, step.IsSpared then some (Gemini.cleanSchema schema) else none := by
  have given : t.parameters.isNull = false := by
    cases h : t.parameters with
    | null =>
      rw [h] at found
      cases place with
      | nil => exact absurd (Option.some_inj.mp found).symm notNull
      | cons step place => cases step <;> cases found
    | _ => rfl
  simp only [Tool.toGemini, given, Bool.false_eq_true, if_false, Option.bind_some,
    Gemini.schemaAt?_cleanSchema, found, Option.map_some]

/-- Of the parameters that a schema inside the schema of a tool declares, the cleaned one declares
those with other names than the refused words, in the same place. None is missing if and only if
no parameter has such a name, and the refused words are no keywords of the cleaned one. -/
theorem Tool.toGemini_parameterNames (t : Tool) {place : List SchemaStep} {schema : Json}
    {names : List String} (found : schemaAt? place t.parameters = some schema)
    (declares : parameterNames? schema = some names) :
    ((∀ step ∈ place, step.IsSpared) →
      ∃ cleaned, t.toGemini.parameters.bind (schemaAt? place) = some cleaned ∧
        parameterNames? cleaned = some (names.filter (· ∉ refusedKeywords)) ∧
        (parameterNames? cleaned = some names ↔ ∀ word ∈ refusedKeywords, word ∉ names) ∧
        ∀ word ∈ refusedKeywords, cleaned.get? word = none) ∧
    (¬ (∀ step ∈ place, step.IsSpared) →
      t.toGemini.parameters.bind (schemaAt? place) = none) := by
  have notNull : schema ≠ .null := by
    rintro rfl
    cases declares
  have there := Tool.schemaAt?_toGemini found notNull
  have left : parameterNames? (Gemini.cleanSchema schema) =
      some (names.filter (· ∉ refusedKeywords)) := by
    rw [Gemini.parameterNames?_cleanSchema, declares, Option.map_some]
  refine ⟨fun spared => ⟨Gemini.cleanSchema schema, ?_, left, ?_, fun word refused => ?_⟩,
    fun notSpared => ?_⟩
  · rw [there, if_pos spared]
  · rw [left, Option.some_inj, List.filter_eq_self]
    exact ⟨fun h word refused declared => by simpa [refused] using h word declared,
      fun h name declared => by simpa using fun refused => h name refused declared⟩
  · rw [Gemini.get?_cleanSchema, if_pos refused]
  · rw [there, if_neg notSpared]

/-- A tool whose parameter is one of several kinds, one of them a list of records with a member
called `default`, which are closed. -/
def searchTool : Tool where
  name := "search"
  description := none
  parameters := .object [("properties", .object [("where", .object [("anyOf", .array [
    .object [("type", .string "null")],
    .object [("items", .object [("additionalProperties", .bool false),
      ("default", .object []), ("properties", .object [("default", .object []),
        ("field", .object [("default", .string "id")])])])]])])])]

theorem toGemini_parameterNames_searchTool :
    let place : List SchemaStep :=
      [.declared "properties" "where", .listed "anyOf" 1, .inside "items"]
    (schemaAt? place searchTool.parameters).bind parameterNames? = some ["default", "field"] ∧
      (searchTool.toGemini.parameters.bind (schemaAt? place)).bind parameterNames? =
        some ["field"] := by
  intro place
  have found : schemaAt? place searchTool.parameters =
      some (.object [("additionalProperties", .bool false), ("default", .object []),
        ("properties", .object [("default", .object []),
          ("field", .object [("default", .string "id")])])]) := rfl
  obtain ⟨cleaned, there, names, -, -⟩ :=
    (Tool.toGemini_parameterNames searchTool found rfl).1 (by decide)
  rw [found, there]
  exact ⟨rfl, names⟩

/-- A parameter called `default` is lost. -/
theorem toGemini_loses_default :
    let t : Tool := ⟨"set", none, .object [("type", .string "object"),
      ("properties", .object [("default", .object [("type", .string "string")]),
        ("name", .object [("type", .string "string")])])]⟩
    parameterNames? t.parameters = some ["default", "name"] ∧
      t.toGemini.parameters.bind parameterNames? = some ["name"] := by
  decide

end Chat

end Switchboard
