import Switchboard.Claude.Event
import Switchboard.Proofs.Json.Choice

/-!
# Content blocks that are read and written again

Blocks, and the deltas of their stream, are open choices. `Block.Kept` and `Delta.Kept` say
member by member what is kept of one, and `Block.survives` and `Delta.survives` that it is.
Each form of a choice is a record, so that the proofs go along its fields : what is read of a
field, and that it is read again and kept.
-/

namespace Switchboard.Claude

open Json

namespace ImageSource

/-- The kinds of places that an image comes from. -/
def forms : List String := ["base64", "url"]

/-- A source of some kind. -/
def ofForm? (form : String) (v : Json) : Option ImageSource :=
  match form with
  | "base64" => do
    let r ← record? ["media_type", "data"] v
    return .base64 (← r.required "media_type" string?) (← r.required "data" string?)
  | _ => do
    let r ← record? ["url"] v
    return .url (← r.required "url" string?)

theorem ofJson?_eq : ofJson? = choose? forms true ofForm? := rfl

/-- What is kept of a source of some kind. -/
def Keeps (form : String) (v w : Json) : Prop :=
  match form with
  | "base64" => KeepsMember "media_type" (Alike string?) v w ∧
    KeepsMember "data" (Alike string?) v w
  | _ => KeepsMember "url" (Alike string?) v w

theorem formsSurvive : FormsSurvive forms ofForm? toJson Keeps where
  untagged form members := by
    unfold ofForm?
    split <;> rw [record?_withoutTag (by decide)]
  again {form v a} known plain h := by
    simp only [forms, List.mem_cons, List.not_mem_nil, or_false] at known
    rcases known with rfl | rfl <;>
      simp only [ofForm?, Option.bind_eq_bind, Option.bind_eq_some_iff, Option.pure_def,
        String.reduceEq, imp_self, Option.some.injEq] at h
    · obtain ⟨r, hr, mediaType, hmediaType, data, hdata, rfl⟩ := h
      obtain ⟨r', hr', c⟩ := exists_passage plain hr
        (rfl : toJson (base64 mediaType data) = ofFields _) (by simp)
      obtain ⟨hmediaType', keptMediaType⟩ :=
        c.required (by decide) survives_string hmediaType (by simp [toJson])
      obtain ⟨hdata', keptData⟩ := c.required (by decide) survives_string hdata (by simp [toJson])
      refine ⟨⟨_, rfl, by simp⟩, ?_, keptMediaType, keptData⟩
      simp [ofForm?, hr', hmediaType', hdata']
    · obtain ⟨r, hr, location, hlocation, rfl⟩ := h
      obtain ⟨r', hr', c⟩ := exists_passage plain hr
        (rfl : toJson (url location) = ofFields _) (by simp)
      obtain ⟨hlocation', keptLocation⟩ :=
        c.required (by decide) survives_string hlocation (by simp [toJson])
      refine ⟨⟨_, rfl, by simp⟩, ?_, keptLocation⟩
      simp [ofForm?, hr', hlocation']

theorem isBlind_ofForm (form : String) : IsBlind (ofForm? form) := by
  unfold ofForm?
  split
  · exact isBlind_record fun r r' s => by simp only [s.required isBlind_string]
  · exact isBlind_record fun r r' s => by simp only [s.required isBlind_string]

/-- What is kept of a source. -/
def Kept (v w : Json) : Prop := Alike ofJson? v w ∧ KeepsChoice forms true Keeps v w

theorem survives : Survives ofJson? toJson Kept :=
  Survives.imp (ofJson?_eq ▸ formsSurvive.survives) fun _ _ alike kept => ⟨alike, kept⟩

theorem isBlind : IsBlind ofJson? := ofJson?_eq ▸ formsSurvive.isBlind isBlind_ofForm

end ImageSource

namespace Block

theorem ofJson_eq : ofJson = choose forms ofForm? other := by
  funext v
  unfold ofJson choose choose?
  split <;> rename_i h <;> rw [h]

/-- What is kept of a block of some kind. -/
def Keeps (form : String) (v w : Json) : Prop :=
  match form with
  | "text" => KeepsMember "text" (Alike string?) v w ∧ KeepsMember "citations" Verbatim v w ∧
    KeepsMember "cache_control" Verbatim v w
  | "image" => KeepsMember "source" ImageSource.Kept v w
  | "tool_use" => KeepsMember "id" (Alike string?) v w ∧ KeepsMember "name" (Alike string?) v w ∧
    KeepsMember "input" Verbatim v w
  | "tool_result" => KeepsMember "tool_use_id" (Alike string?) v w ∧
    KeepsMember "content" Verbatim v w ∧ KeepsMember "is_error" (Alike bool?) v w
  | "thinking" => KeepsMember "thinking" (Alike string?) v w ∧
    KeepsMember "signature" (Alike string?) v w
  | _ => KeepsMember "data" (Alike string?) v w

theorem formsSurvive : FormsSurvive forms ofForm? toJson Keeps where
  untagged form members := by
    unfold ofForm?
    split <;> first | rw [record?_withoutTag (by decide)] | rfl
  again {form v b} known plain h := by
    simp only [forms, List.mem_cons, List.not_mem_nil, or_false] at known
    rcases known with rfl | rfl | rfl | rfl | rfl | rfl <;>
      simp only [ofForm?, Option.bind_eq_bind, Option.bind_eq_some_iff, Option.pure_def,
        Option.some.injEq] at h
    · obtain ⟨r, hr, s, hs, citations, hcitations, control, hcontrol, rfl⟩ := h
      obtain ⟨r', hr', c⟩ := exists_passage plain hr
        (rfl : toJson (.text s citations control) = ofFields _) (by simp)
      obtain ⟨hs', keptText⟩ := c.required (by decide) survives_string hs (by simp [toJson])
      obtain ⟨hcitations', keptCitations⟩ :=
        c.optional (by decide) survives_free hcitations (by simp [toJson])
      obtain ⟨hcontrol', keptControl⟩ :=
        c.optional (by decide) survives_free hcontrol (by simp [toJson])
      refine ⟨⟨_, rfl, by simp⟩, ?_, keptText, keptCitations, keptControl⟩
      simp [ofForm?, hr', hs', hcitations', hcontrol']
    · obtain ⟨r, hr, source, hsource, rfl⟩ := h
      obtain ⟨r', hr', c⟩ := exists_passage plain hr
        (rfl : toJson (.image source) = ofFields _) (by simp)
      obtain ⟨hsource', kept⟩ :=
        c.required (by decide) ImageSource.survives hsource (by simp [toJson])
      refine ⟨⟨_, rfl, by simp⟩, ?_, kept⟩
      simp [ofForm?, hr', hsource']
    · obtain ⟨r, hr, i, hid, name, hname, input, hinput, rfl⟩ := h
      obtain ⟨r', hr', c⟩ := exists_passage plain hr
        (rfl : toJson (.toolUse i name input) = ofFields _) (by simp)
      obtain ⟨hid', keptId⟩ :=
        c.orDefault (by decide) survives_string rfl hid (by simp [toJson])
      obtain ⟨hname', keptName⟩ :=
        c.orDefault (by decide) survives_string rfl hname (by simp [toJson])
      obtain ⟨hinput', keptInput⟩ :=
        c.orDefault (by decide) survives_free rfl hinput (by simp [toJson])
      refine ⟨⟨_, rfl, by simp⟩, ?_, keptId, keptName, keptInput⟩
      simp [ofForm?, hr', hid', hname', hinput']
    · obtain ⟨r, hr, i, hid, content, hcontent, isError, hisError, rfl⟩ := h
      obtain ⟨r', hr', c⟩ := exists_passage plain hr
        (rfl : toJson (.toolResult i content isError) = ofFields _) (by simp)
      obtain ⟨hid', keptId⟩ := c.required (by decide) survives_string hid (by simp [toJson])
      obtain ⟨hcontent', keptContent⟩ :=
        c.orDefault (by decide) survives_free rfl hcontent (by simp [toJson])
      obtain ⟨hisError', keptIsError⟩ :=
        c.optional (by decide) survives_bool hisError (by simp [toJson])
      refine ⟨⟨_, rfl, by simp⟩, ?_, keptId, keptContent, keptIsError⟩
      simp [ofForm?, hr', hid', hcontent', hisError']
    · obtain ⟨r, hr, s, hs, signature, hsignature, rfl⟩ := h
      obtain ⟨r', hr', c⟩ := exists_passage plain hr
        (rfl : toJson (.thinking s signature) = ofFields _) (by simp)
      obtain ⟨hs', keptThinking⟩ := c.required (by decide) survives_string hs (by simp [toJson])
      obtain ⟨hsignature', keptSignature⟩ :=
        c.optional (by decide) survives_string hsignature (by simp [toJson])
      refine ⟨⟨_, rfl, by simp⟩, ?_, keptThinking, keptSignature⟩
      simp [ofForm?, hr', hs', hsignature']
    · obtain ⟨r, hr, data, hdata, rfl⟩ := h
      obtain ⟨r', hr', c⟩ := exists_passage plain hr
        (rfl : toJson (.redactedThinking data) = ofFields _) (by simp)
      obtain ⟨hdata', kept⟩ := c.required (by decide) survives_string hdata (by simp [toJson])
      refine ⟨⟨_, rfl, by simp⟩, ?_, kept⟩
      simp [ofForm?, hr', hdata']

theorem isBlind_ofForm (form : String) : IsBlind (ofForm? form) := by
  unfold ofForm?
  split
  · exact isBlind_record fun r r' s => by
      simp only [s.required isBlind_string, s.optional isBlind_free]
  · exact isBlind_record fun r r' s => by simp only [s.required ImageSource.isBlind]
  · exact isBlind_record fun r r' s => by
      simp only [s.orDefault isBlind_string, s.orDefault isBlind_free]
  · exact isBlind_record fun r r' s => by
      simp only [s.required isBlind_string, s.orDefault isBlind_free, s.optional isBlind_bool]
  · exact isBlind_record fun r r' s => by
      simp only [s.required isBlind_string, s.optional isBlind_string]
  · exact isBlind_record fun r r' s => by simp only [s.required isBlind_string]
  · exact fun _ _ => rfl

/-- What is kept of a block. -/
def Kept (v w : Json) : Prop := ofJson w = ofJson v ∧ KeepsOpen forms ofForm? Keeps v w

theorem survives : Survives (fun v => some (ofJson v)) toJson Kept :=
  formsSurvive.survives_read isBlind_ofForm (fun _ => rfl) ofJson_eq

theorem isBlind : IsBlind fun v => some (ofJson v) :=
  ofJson_eq ▸ formsSurvive.isBlind_open isBlind_ofForm

end Block

namespace Delta

theorem ofJson_eq : ofJson = choose (forms.map (·.1)) ofForm? other := by
  funext v
  unfold ofJson choose choose?
  split <;> rename_i h <;> rw [h]

/-- What is kept of a delta of some kind : the one field that it carries. -/
def Keeps (form : String) (v w : Json) : Prop :=
  ∀ fieldName, forms.lookup form = some fieldName → KeepsMember fieldName (Alike string?) v w

/-- A delta is written with the one field that it carries. -/
theorem carried_again {form fieldName s : String} {d : Delta} {v : Json} {r : Record}
    (plain : v.isPlain) (hr : record? [fieldName] v = some r)
    (hs : r.required fieldName string? = some s) (hd : toJson d =
      ofFields [field "type" (.string form), field fieldName (.string s)])
    (carries : forms.lookup form = some fieldName) (apart : "type" ≠ fieldName) :
    (∃ fs, toJson d = ofFields (field "type" (.string form) :: fs) ∧
      WrittenOnce (field "type" (.string form) :: fs)) ∧
    (∃ r', record? [fieldName] (toJson d) = some r' ∧ r'.required fieldName string? = some s) ∧
    Keeps form v (toJson d) := by
  have once : WrittenOnce [field "type" (.string form), field fieldName (.string s)] := by
    simp [apart]
  obtain ⟨r', hr', c⟩ := exists_passage plain hr hd once
  obtain ⟨hs', kept⟩ := c.required (by simp) survives_string hs (by simp [hd, apart.symm])
  refine ⟨⟨_, hd, once⟩, ⟨r', hr', hs'⟩, fun name h => ?_⟩
  obtain rfl := Option.some_inj.mp (carries.symm.trans h)
  exact kept

theorem formsSurvive : FormsSurvive (forms.map (·.1)) ofForm? toJson Keeps where
  untagged form members := by
    unfold ofForm?
    cases h : forms.lookup form with
    | none => rfl
    | some fieldName =>
      have other : fieldName ≠ "type" := by
        have known := mem_of_lookup h
        simp only [forms, List.mem_cons, Prod.mk.injEq, List.not_mem_nil, or_false] at known
        rcases known with ⟨-, rfl⟩ | ⟨-, rfl⟩ | ⟨-, rfl⟩ | ⟨-, rfl⟩ <;> decide
      simp only [Option.bind_eq_bind, Option.bind_some]
      rw [record?_withoutTag (by simpa using other.symm)]
  again {form v d} known plain h := by
    simp only [forms, List.map_cons, List.map_nil, List.mem_cons, List.not_mem_nil,
      or_false] at known
    rcases known with rfl | rfl | rfl | rfl <;>
      simp [ofForm?, forms, List.lookup_cons, Option.bind_eq_some_iff] at h <;>
      obtain ⟨r, hr, s, hs, rfl⟩ := h
    · obtain ⟨written, ⟨r', hr', hs'⟩, kept⟩ :=
        carried_again (d := .text s) plain hr hs rfl rfl (by decide)
      exact ⟨written, by simp [ofForm?, forms, hr', hs'], kept⟩
    · obtain ⟨written, ⟨r', hr', hs'⟩, kept⟩ :=
        carried_again (d := .thinking s) plain hr hs rfl rfl (by decide)
      exact ⟨written, by simp [ofForm?, forms, List.lookup_cons, hr', hs'], kept⟩
    · obtain ⟨written, ⟨r', hr', hs'⟩, kept⟩ :=
        carried_again (d := .signature s) plain hr hs rfl rfl (by decide)
      exact ⟨written, by simp [ofForm?, forms, List.lookup_cons, hr', hs'], kept⟩
    · obtain ⟨written, ⟨r', hr', hs'⟩, kept⟩ :=
        carried_again (d := .inputJson s) plain hr hs rfl rfl (by decide)
      exact ⟨written, by simp [ofForm?, forms, List.lookup_cons, hr', hs'], kept⟩

theorem isBlind_ofForm (form : String) : IsBlind (ofForm? form) := by
  unfold ofForm?
  cases forms.lookup form with
  | none => exact fun _ _ => rfl
  | some fieldName =>
    exact isBlind_record fun r r' s => by simp only [s.required isBlind_string]

/-- What is kept of a delta. -/
def Kept (v w : Json) : Prop :=
  ofJson w = ofJson v ∧ KeepsOpen (forms.map (·.1)) ofForm? Keeps v w

theorem survives : Survives (fun v => some (ofJson v)) toJson Kept :=
  formsSurvive.survives_read isBlind_ofForm (fun _ => rfl) ofJson_eq

theorem isBlind : IsBlind fun v => some (ofJson v) :=
  ofJson_eq ▸ formsSurvive.isBlind_open isBlind_ofForm

end Delta

end Switchboard.Claude
