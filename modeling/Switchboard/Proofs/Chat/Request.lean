import Switchboard.Chat.Request
import Switchboard.Proofs.Json.Choice

/-!
# Chat requests that are read and written again

`Request.survives` for the requests of the chat protocol, part by part from the inside out. Of
these nothing more is said than that they are read as the same again : a member that the reader
ignores is not written.
-/

namespace Switchboard.Chat

open Json

/-! ## The parts of a message -/

theorem Role.survives : Survives Role.ofJson? Role.toJson (Alike Role.ofJson?) := by
  refine survives_alike fun v role _ h => ⟨?_, by cases role <;> nofun⟩
  obtain ⟨name, -, h⟩ := Option.bind_eq_some_iff.mp h
  have known := mem_of_lookup h
  simp only [named, List.mem_cons, Prod.mk.injEq, List.not_mem_nil, or_false] at known
  rcases known with ⟨-, rfl⟩ | ⟨-, rfl⟩ | ⟨-, rfl⟩ | ⟨-, rfl⟩ <;> rfl

/-- The kind of a tool or of a call is written in any case. -/
theorem survives_functionKind :
    Survives functionKind? (fun _ => .string "function") (Alike functionKind?) :=
  survives_alike fun _ _ _ _ => ⟨rfl, nofun⟩

namespace Part

/-- The address of an image, as it is written. -/
def imageUrlJson (image : String × Option String) : Json :=
  ofFields [field "url" (.string image.1), fieldIf "detail" .string image.2]

theorem survives_imageUrl : Survives imageUrl? imageUrlJson (Alike imageUrl?) := by
  refine survives_alike_record (fun _ => rfl) fun v image plain h => ?_
  simp only [imageUrl?, Option.bind_eq_bind, Option.bind_eq_some_iff, Option.pure_def,
    Option.some.injEq] at h
  obtain ⟨r, hr, url, hurl, detail, hdetail, rfl⟩ := h
  obtain ⟨r', hr', c⟩ := exists_passage plain hr
    (rfl : imageUrlJson (url, detail) = ofFields _) (by simp)
  have hurl' := (c.required (by decide) survives_string hurl (by simp [imageUrlJson])).1
  have hdetail' := (c.optional (by decide) survives_string hdetail (by simp [imageUrlJson])).1
  exact bind_eq_some_of hr' <| bind_eq_some_of hurl' <| bind_eq_some_of hdetail' rfl

/-- The kinds of parts. -/
def forms : List String := ["text", "image_url"]

/-- A part of some kind. -/
def ofForm? (form : String) (v : Json) : Option Part :=
  match form with
  | "text" => do
    let r ← record? ["text"] v
    return .text (← r.required "text" string?)
  | _ => do
    let r ← record? ["image_url"] v
    let (url, detail) ← r.required "image_url" imageUrl?
    return .image url detail

theorem ofJson?_eq : ofJson? = choose? forms true ofForm? := rfl

theorem formsSurvive : FormsSurvive forms ofForm? toJson fun _ _ _ => True where
  untagged form members := by
    unfold ofForm?
    split <;> rw [record?_withoutTag (by decide)]
  again {form v p} known plain h := by
    simp only [forms, List.mem_cons, List.not_mem_nil, or_false] at known
    rcases known with rfl | rfl <;>
      simp only [ofForm?, Option.bind_eq_bind, Option.bind_eq_some_iff, Option.pure_def,
        Prod.exists, String.reduceEq, imp_self, Option.some.injEq] at h
    · obtain ⟨r, hr, s, hs, rfl⟩ := h
      obtain ⟨r', hr', c⟩ := exists_passage plain hr (rfl : toJson (.text s) = ofFields _)
        (by simp)
      have hs' := (c.required (by decide) survives_string hs (by simp [toJson])).1
      refine ⟨⟨_, rfl, by simp⟩, ?_, trivial⟩
      simp [ofForm?, hr', hs']
    · obtain ⟨r, hr, url, detail, himage, rfl⟩ := h
      obtain ⟨r', hr', c⟩ := exists_passage plain hr
        (rfl : toJson (.image url detail) = ofFields _) (by simp)
      have himage' :=
        (c.required (by decide) survives_imageUrl himage (by simp [toJson, imageUrlJson])).1
      refine ⟨⟨_, rfl, by simp⟩, ?_, trivial⟩
      simp [ofForm?, hr', himage']

theorem survives : Survives ofJson? toJson (Alike ofJson?) :=
  Survives.imp (ofJson?_eq ▸ formsSurvive.survives) fun _ _ alike _ => alike

end Part

theorem Content.survives : Survives Content.ofJson? Content.toJson (Alike Content.ofJson?) := by
  refine (Part.survives.textOr (⟨fun _ => rfl, fun v h => ?_, fun _ => rfl, fun _ => rfl⟩ :
    IsTextOr _ _ _ _ Content.text Content.parts)).imp fun _ _ alike _ => alike
  cases v with
  | string s => cases h
  | _ => rfl

namespace ToolCall

/-- The name and the arguments of a call, as they are written. -/
def functionJson (f : String × String) : Json :=
  ofFields [field "name" (.string f.1), field "arguments" (.string f.2)]

theorem survives_function : Survives function? functionJson (Alike function?) := by
  refine survives_alike_record (fun _ => rfl) fun v f plain h => ?_
  simp only [function?, Option.bind_eq_bind, Option.bind_eq_some_iff, Option.pure_def,
    Option.some.injEq] at h
  obtain ⟨r, hr, name, hname, arguments, harguments, rfl⟩ := h
  obtain ⟨r', hr', c⟩ := exists_passage plain hr
    (rfl : functionJson (name, arguments) = ofFields _) (by simp)
  have hname' := (c.required (by decide) survives_string hname (by simp [functionJson])).1
  have harguments' :=
    (c.orDefault (by decide) survives_string rfl harguments (by simp [functionJson])).1
  exact bind_eq_some_of hr' <| bind_eq_some_of hname' <| bind_eq_some_of harguments' rfl

theorem survives : Survives ofJson? toJson (Alike ofJson?) := by
  refine survives_alike_record (fun _ => rfl) fun v call plain h => ?_
  simp only [ofJson?, Option.bind_eq_bind, Option.bind_eq_some_iff, Option.pure_def,
    Option.some.injEq, Prod.exists] at h
  obtain ⟨r, hr, id, hid, kind, hkind, name, arguments, hfunction, rfl⟩ := h
  obtain ⟨r', hr', c⟩ := exists_passage plain hr
    (rfl : toJson ⟨id, name, arguments⟩ = ofFields _) (by simp)
  have hid' := (c.required (by decide) survives_string hid (by simp [toJson])).1
  have hkind' := (c.orDefault (by decide) survives_functionKind rfl hkind (by simp [toJson])).1
  have hfunction' :=
    (c.required (by decide) survives_function hfunction (by simp [toJson, functionJson])).1
  exact bind_eq_some_of hr' <| bind_eq_some_of hid' <| bind_eq_some_of hkind' <|
    bind_eq_some_of hfunction' rfl

end ToolCall

theorem Message.survives : Survives Message.ofJson? Message.toJson (Alike Message.ofJson?) := by
  refine survives_alike_record (fun _ => rfl) fun v m plain h => ?_
  simp only [ofJson?, Option.bind_eq_bind, Option.bind_eq_some_iff, Option.pure_def,
    Option.some.injEq] at h
  obtain ⟨r, hr, role, hrole, content, hcontent, calls, hcalls, id, hid, reasoning, hreasoning,
    rfl⟩ := h
  obtain ⟨r', hr', c⟩ := exists_passage plain hr
    (rfl : toJson ⟨role, content, calls, id, reasoning⟩ = ofFields _) (by simp)
  have hrole' := (c.required (by decide) Role.survives hrole (by simp [toJson])).1
  have hcontent' := (c.optional (by decide) Content.survives hcontent (by simp [toJson])).1
  have hcalls' := (c.optional (by decide) ToolCall.survives.list hcalls (by simp [toJson])).1
  have hid' := (c.optional (by decide) survives_string hid (by simp [toJson])).1
  have hreasoning' := (c.optional (by decide) survives_string hreasoning (by simp [toJson])).1
  exact bind_eq_some_of hr' <| bind_eq_some_of hrole' <| bind_eq_some_of hcontent' <|
    bind_eq_some_of hcalls' <| bind_eq_some_of hid' <| bind_eq_some_of hreasoning' rfl

/-! ## Tools -/

namespace Tool

/-- The function of a tool, as it is written. -/
def functionJson (t : Tool) : Json := ofFields
  [field "name" (.string t.name), fieldIf "description" .string t.description,
    if t.parameters.isNull then none else field "parameters" t.parameters]

theorem survives_function : Survives function? functionJson (Alike function?) := by
  refine survives_alike_record (fun _ => rfl) fun v t plain h => ?_
  simp only [function?, Option.bind_eq_bind, Option.bind_eq_some_iff, Option.pure_def,
    Option.some.injEq] at h
  obtain ⟨r, hr, name, hname, description, hdescription, parameters, hparameters, rfl⟩ := h
  obtain ⟨r', hr', c⟩ := exists_passage plain hr
    (rfl : functionJson ⟨name, description, parameters⟩ = ofFields _) (by simp)
  have hname' := (c.required (by decide) survives_string hname (by simp [functionJson])).1
  have hdescription' :=
    (c.optional (by decide) survives_string hdescription (by simp [functionJson])).1
  have hparameters' := c.orDefault_omitted (by decide) survives_free rfl hparameters
    (by cases parameters <;> simp [functionJson, isNull])
  exact bind_eq_some_of hr' <| bind_eq_some_of hname' <| bind_eq_some_of hdescription' <|
    bind_eq_some_of hparameters' rfl

theorem survives : Survives ofJson? toJson (Alike ofJson?) := by
  refine survives_alike_record (fun _ => rfl) fun v t plain h => ?_
  simp only [ofJson?, Option.bind_eq_bind, Option.bind_eq_some_iff] at h
  obtain ⟨r, hr, kind, hkind, hfunction⟩ := h
  obtain ⟨r', hr', c⟩ := exists_passage plain hr (rfl : toJson t = ofFields _) (by simp)
  have hkind' := (c.orDefault (by decide) survives_functionKind rfl hkind (by simp [toJson])).1
  have hfunction' :=
    (c.required (by decide) survives_function hfunction (by simp [toJson, functionJson])).1
  exact bind_eq_some_of hr' <| bind_eq_some_of hkind' hfunction'

end Tool

namespace ToolChoice

/-- The function that a choice names. -/
def name? (f : Json) : Option String := do
  let r ← record? ["name"] f
  r.required "name" string?

theorem survives_name :
    Survives name? (fun name => ofFields [field "name" (.string name)]) (Alike name?) := by
  refine survives_alike_record (fun _ => rfl) fun v name plain h => ?_
  obtain ⟨r, hr, hname⟩ := Option.bind_eq_some_iff.mp h
  obtain ⟨r', hr', c⟩ := exists_passage plain hr
    (rfl : ofFields [field "name" (.string name)] = ofFields _) (by simp)
  have hname' := (c.required (by decide) survives_string hname (by simp)).1
  exact bind_eq_some_of hr' hname'

theorem survives : Survives ofJson? toJson (Alike ofJson?) := by
  refine survives_alike fun v choice plain h => ⟨?_, by cases choice <;> nofun⟩
  unfold ofJson? at h
  split at h
  · have known := mem_of_lookup h
    simp only [modes, List.mem_cons, Prod.mk.injEq, List.not_mem_nil, or_false] at known
    rcases known with ⟨-, rfl⟩ | ⟨-, rfl⟩ | ⟨-, rfl⟩ <;> rfl
  · obtain ⟨r, hr, h⟩ := Option.bind_eq_some_iff.mp h
    obtain ⟨kind, hkind, h⟩ := Option.bind_eq_some_iff.mp h
    obtain ⟨name, hname, h⟩ := Option.bind_eq_some_iff.mp h
    obtain rfl := Option.some_inj.mp h
    obtain ⟨r', hr', c⟩ := exists_passage plain hr (rfl : toJson (.named name) = ofFields _)
      (by simp)
    have hkind' := (c.orDefault (by decide) survives_functionKind rfl hkind (by simp [toJson])).1
    have hname' := (c.required (by decide) survives_name hname (by simp [toJson])).1
    have again : named? (toJson (.named name)) = some (.named name) :=
      bind_eq_some_of hr' <| bind_eq_some_of hkind' <| bind_eq_some_of hname' rfl
    exact again

end ToolChoice

/-! ## Requests -/

theorem Request.survives : Survives Request.ofJson? Request.toJson (Alike Request.ofJson?) := by
  refine survives_alike_record (fun _ => rfl) fun v q plain h => ?_
  obtain ⟨r, hr, h⟩ := Option.bind_eq_some_iff.mp h
  obtain ⟨model, hmodel, h⟩ := Option.bind_eq_some_iff.mp h
  obtain ⟨messages, hmessages, h⟩ := Option.bind_eq_some_iff.mp h
  obtain ⟨maxTokens, hmaxTokens, h⟩ := Option.bind_eq_some_iff.mp h
  obtain ⟨temperature, htemperature, h⟩ := Option.bind_eq_some_iff.mp h
  obtain ⟨topP, htopP, h⟩ := Option.bind_eq_some_iff.mp h
  obtain ⟨stop, hstop, h⟩ := Option.bind_eq_some_iff.mp h
  obtain ⟨tools, htools, h⟩ := Option.bind_eq_some_iff.mp h
  obtain ⟨choice, hchoice, h⟩ := Option.bind_eq_some_iff.mp h
  obtain ⟨parallel, hparallel, h⟩ := Option.bind_eq_some_iff.mp h
  obtain ⟨stream, hstream, h⟩ := Option.bind_eq_some_iff.mp h
  obtain rfl := Option.some_inj.mp h
  obtain ⟨r', hr', c⟩ := exists_passage plain hr
    (rfl : toJson ⟨model, messages, maxTokens, temperature, topP, stop, tools, choice, parallel,
      stream⟩ = ofFields _) (by simp)
  have hmodel' := (c.required (by decide) survives_string hmodel (by simp [toJson])).1
  have hmessages' :=
    (c.required (by decide) Message.survives.list hmessages (by simp [toJson])).1
  have hmaxTokens' := (c.optional (by decide) survives_u32 hmaxTokens (by simp [toJson])).1
  have htemperature' :=
    (c.optional (by decide) survives_real32 htemperature (by simp [toJson])).1
  have htopP' := (c.optional (by decide) survives_real32 htopP (by simp [toJson])).1
  have hstop' := (c.optional (by decide) survives_string.list hstop (by simp [toJson])).1
  have htools' := (c.optional (by decide) Tool.survives.list htools (by simp [toJson])).1
  have hchoice' := (c.optional (by decide) ToolChoice.survives hchoice (by simp [toJson])).1
  have hparallel' := (c.optional (by decide) survives_bool hparallel (by simp [toJson])).1
  have hstream' := c.orDefault_omitted (by decide) survives_bool rfl hstream
    (by cases stream <;> simp [toJson])
  exact bind_eq_some_of hr' <| bind_eq_some_of hmodel' <| bind_eq_some_of hmessages' <|
    bind_eq_some_of hmaxTokens' <| bind_eq_some_of htemperature' <| bind_eq_some_of htopP' <|
    bind_eq_some_of hstop' <| bind_eq_some_of htools' <| bind_eq_some_of hchoice' <|
    bind_eq_some_of hparallel' <| bind_eq_some_of hstream' rfl

end Switchboard.Chat
