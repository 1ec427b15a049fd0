import Switchboard.Proofs.Claude.Message

/-!
# Requests that are read and written again

`Request.survives` for the requests of the native protocol. A system prompt and the content of
a message are one text or a list of blocks, and the schema of a tool, the metadata and the
settings for thinking are free values, which are kept as they are.
-/

namespace Switchboard.Claude

open Json

/-! ## The system prompt -/

namespace SystemBlock

/-- What is kept of a block of the system prompt. -/
structure Kept (v w : Json) : Prop where
  alike : Alike ofJson? v w
  kind : KeepsMember "type" (Alike string?) v w
  text : KeepsMember "text" (Alike string?) v w
  cacheControl : KeepsMember "cache_control" Verbatim v w

theorem survives : Survives ofJson? toJson Kept := by
  refine survives_record (fun _ => rfl) fun v b plain h => ?_
  have alike := h
  simp only [ofJson?, Option.bind_eq_bind, Option.bind_eq_some_iff, Option.pure_def,
    Option.some.injEq] at h
  obtain ⟨r, hr, kind, hkind, s, hs, control, hcontrol, rfl⟩ := h
  obtain ⟨r', hr', c⟩ := exists_passage plain hr
    (rfl : toJson ⟨kind, s, control⟩ = ofFields _) (by simp)
  obtain ⟨hkind', keptKind⟩ :=
    c.orDefault (by decide) survives_string rfl hkind (by simp [toJson])
  obtain ⟨hs', keptText⟩ := c.orDefault (by decide) survives_string rfl hs (by simp [toJson])
  obtain ⟨hcontrol', keptControl⟩ :=
    c.optional (by decide) survives_free hcontrol (by simp [toJson])
  have again : ofJson? (toJson ⟨kind, s, control⟩) = some ⟨kind, s, control⟩ := by
    simp only [ofJson?, hr', hkind', hs', hcontrol', Option.bind_eq_bind, Option.bind_some,
      Option.pure_def]
  exact ⟨again, again.trans alike.symm, keptKind, keptText, keptControl⟩

end SystemBlock

/-- What is kept of a system prompt : all of it, and of its blocks what is kept of a block. -/
def System.Kept (v w : Json) : Prop := Alike System.ofJson? v w ∧ KeepsItems SystemBlock.Kept v w

theorem System.survives : Survives System.ofJson? System.toJson System.Kept := by
  refine SystemBlock.survives.textOr (⟨fun _ => rfl, fun v h => ?_, fun _ => rfl, fun _ => rfl⟩ :
    IsTextOr _ _ _ _ System.text System.blocks)
  cases v with
  | string s => cases h
  | _ => rfl

/-! ## Messages -/

/-- What is kept of a content : all of it, and of its blocks what is kept of a block. -/
def Content.Kept (v w : Json) : Prop := Alike Content.ofJson? v w ∧ KeepsItems Block.Kept v w

theorem Content.survives : Survives Content.ofJson? Content.toJson Content.Kept := by
  refine Block.survives.textOr (⟨fun _ => rfl, fun v h => ?_, fun _ => rfl, fun _ => rfl⟩ :
    IsTextOr _ _ _ _ Content.text Content.blocks)
  cases v with
  | string s => cases h
  | array items =>
    have whole : items.mapM (fun b => some (Block.ofJson b)) = some (items.map Block.ofJson) :=
      List.mapM_pure
    change _ = (items.mapM fun b => some (Block.ofJson b)).map Content.blocks
    rw [whole]
    rfl
  | _ => rfl

namespace Message

/-- What is kept of a message. -/
structure Kept (v w : Json) : Prop where
  alike : Alike ofJson? v w
  role : KeepsMember "role" (Alike Role.ofJson?) v w
  content : KeepsMember "content" Content.Kept v w

theorem survives : Survives ofJson? toJson Kept := by
  refine survives_record (fun _ => rfl) fun v m plain h => ?_
  have alike := h
  simp only [ofJson?, Option.bind_eq_bind, Option.bind_eq_some_iff, Option.pure_def,
    Option.some.injEq] at h
  obtain ⟨r, hr, role, hrole, content, hcontent, rfl⟩ := h
  obtain ⟨r', hr', c⟩ := exists_passage plain hr
    (rfl : toJson ⟨role, content⟩ = ofFields _) (by simp)
  obtain ⟨hrole', keptRole⟩ := c.required (by decide) Role.survives_ofJson hrole (by simp [toJson])
  obtain ⟨hcontent', keptContent⟩ :=
    c.required (by decide) Content.survives hcontent (by simp [toJson])
  have again : ofJson? (toJson ⟨role, content⟩) = some ⟨role, content⟩ := by
    simp only [ofJson?, hr', hrole', hcontent', Option.bind_eq_bind, Option.bind_some,
      Option.pure_def]
  exact ⟨again, again.trans alike.symm, keptRole, keptContent⟩

end Message

/-! ## Tools -/

namespace Tool

/-- What is kept of a tool. -/
structure Kept (v w : Json) : Prop where
  alike : Alike ofJson? v w
  name : KeepsMember "name" (Alike string?) v w
  description : KeepsMember "description" (Alike string?) v w
  inputSchema : KeepsMember "input_schema" Verbatim v w
  kind : KeepsMember "type" (Alike string?) v w
  cacheControl : KeepsMember "cache_control" Verbatim v w

theorem survives : Survives ofJson? toJson Kept := by
  refine survives_record (fun _ => rfl) fun v t plain h => ?_
  have alike := h
  simp only [ofJson?, Option.bind_eq_bind, Option.bind_eq_some_iff, Option.pure_def,
    Option.some.injEq] at h
  obtain ⟨r, hr, name, hname, description, hdescription, schema, hschema, kind, hkind, control,
    hcontrol, rfl⟩ := h
  obtain ⟨r', hr', c⟩ := exists_passage plain hr
    (rfl : toJson ⟨name, description, schema, kind, control⟩ = ofFields _) (by simp)
  obtain ⟨hname', keptName⟩ := c.required (by decide) survives_string hname (by simp [toJson])
  obtain ⟨hdescription', keptDescription⟩ :=
    c.optional (by decide) survives_string hdescription (by simp [toJson])
  obtain ⟨hschema', keptSchema⟩ :=
    c.orDefault (by decide) survives_free rfl hschema (by simp [toJson])
  obtain ⟨hkind', keptKind⟩ := c.optional (by decide) survives_string hkind (by simp [toJson])
  obtain ⟨hcontrol', keptControl⟩ :=
    c.optional (by decide) survives_free hcontrol (by simp [toJson])
  have again : ofJson? (toJson ⟨name, description, schema, kind, control⟩) =
      some ⟨name, description, schema, kind, control⟩ := by
    simp only [ofJson?, hr', hname', hdescription', hschema', hkind', hcontrol',
      Option.bind_eq_bind, Option.bind_some, Option.pure_def]
  exact ⟨again, again.trans alike.symm, keptName, keptDescription, keptSchema, keptKind,
    keptControl⟩

end Tool

namespace ToolChoice

/-- The kinds of choices. -/
def forms : List String := ["auto", "any", "tool", "none"]

/-- A choice of some kind. -/
def ofForm? (form : String) (v : Json) : Option ToolChoice :=
  let disable := "disable_parallel_tool_use"
  match form with
  | "auto" => do
    let r ← record? [disable] v
    return .auto (← r.optional disable bool?)
  | "any" => do
    let r ← record? [disable] v
    return .any (← r.optional disable bool?)
  | "tool" => do
    let r ← record? ["name", disable] v
    return .tool (← r.required "name" string?) (← r.optional disable bool?)
  | _ => do
    noFields? v
    return .none

theorem ofJson?_eq : ofJson? = choose? forms false ofForm? := rfl

/-- What is kept of a choice of some kind. -/
def Keeps (form : String) (v w : Json) : Prop :=
  match form with
  | "tool" => KeepsMember "name" (Alike string?) v w ∧
    KeepsMember "disable_parallel_tool_use" (Alike bool?) v w
  | "none" => True
  | _ => KeepsMember "disable_parallel_tool_use" (Alike bool?) v w

theorem formsSurvive : FormsSurvive forms ofForm? toJson Keeps where
  untagged form members := by
    unfold ofForm?
    dsimp only
    split <;> first | rw [record?_withoutTag (by decide)] | rfl
  again {form v c} known plain h := by
    simp only [forms, List.mem_cons, List.not_mem_nil, or_false] at known
    rcases known with rfl | rfl | rfl | rfl <;>
      simp only [ofForm?, Option.bind_eq_bind, Option.bind_eq_some_iff, Option.pure_def,
        exists_and_right, String.reduceEq, imp_self, Option.some.injEq] at h
    · obtain ⟨r, hr, d, hd, rfl⟩ := h
      obtain ⟨r', hr', c⟩ := exists_passage plain hr (rfl : toJson (.auto d) = ofFields _)
        (by simp)
      obtain ⟨hd', kept⟩ := c.optional (by decide) survives_bool hd (by simp [toJson])
      refine ⟨⟨_, rfl, by simp⟩, ?_, kept⟩
      simp [ofForm?, hr', hd']
    · obtain ⟨r, hr, d, hd, rfl⟩ := h
      obtain ⟨r', hr', c⟩ := exists_passage plain hr (rfl : toJson (.any d) = ofFields _)
        (by simp)
      obtain ⟨hd', kept⟩ := c.optional (by decide) survives_bool hd (by simp [toJson])
      refine ⟨⟨_, rfl, by simp⟩, ?_, kept⟩
      simp [ofForm?, hr', hd']
    · obtain ⟨r, hr, name, hname, d, hd, rfl⟩ := h
      obtain ⟨r', hr', c⟩ := exists_passage plain hr (rfl : toJson (.tool name d) = ofFields _)
        (by simp)
      obtain ⟨hname', keptName⟩ := c.required (by decide) survives_string hname (by simp [toJson])
      obtain ⟨hd', kept⟩ := c.optional (by decide) survives_bool hd (by simp [toJson])
      refine ⟨⟨_, rfl, by simp⟩, ?_, keptName, kept⟩
      simp [ofForm?, hr', hname', hd']
    · obtain ⟨-, rfl⟩ := h
      exact ⟨⟨_, rfl, by simp⟩, rfl, trivial⟩

/-- What is kept of a choice. -/
def Kept (v w : Json) : Prop := Alike ofJson? v w ∧ KeepsChoice forms false Keeps v w

theorem survives : Survives ofJson? toJson Kept :=
  Survives.imp (ofJson?_eq ▸ formsSurvive.survives) fun _ _ alike kept => ⟨alike, kept⟩

end ToolChoice

/-! ## Requests -/

namespace Request

/-- What is kept of a request. -/
structure Kept (v w : Json) : Prop where
  alike : Alike ofJson? v w
  model : KeepsMember "model" (Alike string?) v w
  messages : KeepsMember "messages" (KeepsList Message.ofJson? Message.Kept) v w
  system : KeepsMember "system" System.Kept v w
  maxTokens : KeepsMember "max_tokens" (Alike u32?) v w
  temperature : KeepsMember "temperature" (Alike real32?) v w
  topP : KeepsMember "top_p" (Alike real32?) v w
  topK : KeepsMember "top_k" (Alike u32?) v w
  stopSequences : KeepsMember "stop_sequences" (KeepsList string? (Alike string?)) v w
  tools : KeepsMember "tools" (KeepsList Tool.ofJson? Tool.Kept) v w
  toolChoice : KeepsMember "tool_choice" ToolChoice.Kept v w
  stream : KeepsMember "stream" (Alike bool?) v w
  metadata : KeepsMember "metadata" Verbatim v w
  thinking : KeepsMember "thinking" Verbatim v w

theorem survives : Survives ofJson? toJson Kept := by
  refine survives_record (fun _ => rfl) fun v q plain h => ?_
  have alike := h
  obtain ⟨r, hr, h⟩ := Option.bind_eq_some_iff.mp h
  obtain ⟨model, hmodel, h⟩ := Option.bind_eq_some_iff.mp h
  obtain ⟨messages, hmessages, h⟩ := Option.bind_eq_some_iff.mp h
  obtain ⟨system, hsystem, h⟩ := Option.bind_eq_some_iff.mp h
  obtain ⟨maxTokens, hmaxTokens, h⟩ := Option.bind_eq_some_iff.mp h
  obtain ⟨temperature, htemperature, h⟩ := Option.bind_eq_some_iff.mp h
  obtain ⟨topP, htopP, h⟩ := Option.bind_eq_some_iff.mp h
  obtain ⟨topK, htopK, h⟩ := Option.bind_eq_some_iff.mp h
  obtain ⟨stops, hstops, h⟩ := Option.bind_eq_some_iff.mp h
  obtain ⟨tools, htools, h⟩ := Option.bind_eq_some_iff.mp h
  obtain ⟨choice, hchoice, h⟩ := Option.bind_eq_some_iff.mp h
  obtain ⟨stream, hstream, h⟩ := Option.bind_eq_some_iff.mp h
  obtain ⟨metadata, hmetadata, h⟩ := Option.bind_eq_some_iff.mp h
  obtain ⟨thinking, hthinking, h⟩ := Option.bind_eq_some_iff.mp h
  obtain rfl := Option.some_inj.mp h
  obtain ⟨r', hr', c⟩ := exists_passage plain hr
    (rfl : toJson ⟨model, messages, system, maxTokens, temperature, topP, topK, stops, tools,
      choice, stream, metadata, thinking⟩ = ofFields _) (by simp)
  obtain ⟨hmodel', keptModel⟩ :=
    c.required (by decide) survives_string hmodel (by simp [toJson, toJsonWith])
  obtain ⟨hmessages', keptMessages⟩ :=
    c.required (by decide) Message.survives.list hmessages (by simp [toJson, toJsonWith])
  obtain ⟨hsystem', keptSystem⟩ :=
    c.optional (by decide) System.survives hsystem (by simp [toJson, toJsonWith])
  obtain ⟨hmaxTokens', keptMaxTokens⟩ :=
    c.orDefault (by decide) survives_u32 rfl hmaxTokens (by simp [toJson, toJsonWith])
  obtain ⟨htemperature', keptTemperature⟩ :=
    c.optional (by decide) survives_real32 htemperature (by simp [toJson, toJsonWith])
  obtain ⟨htopP', keptTopP⟩ :=
    c.optional (by decide) survives_real32 htopP (by simp [toJson, toJsonWith])
  obtain ⟨htopK', keptTopK⟩ :=
    c.optional (by decide) survives_u32 htopK (by simp [toJson, toJsonWith])
  obtain ⟨hstops', keptStops⟩ :=
    c.optional (by decide) survives_string.list hstops (by simp [toJson, toJsonWith])
  obtain ⟨htools', keptTools⟩ :=
    c.optional (by decide) Tool.survives.list htools (by simp [toJson, toJsonWith])
  obtain ⟨hchoice', keptChoice⟩ :=
    c.optional (by decide) ToolChoice.survives hchoice (by simp [toJson, toJsonWith])
  obtain ⟨hstream', keptStream⟩ :=
    c.optional (by decide) survives_bool hstream (by simp [toJson, toJsonWith])
  obtain ⟨hmetadata', keptMetadata⟩ :=
    c.optional (by decide) survives_free hmetadata (by simp [toJson, toJsonWith])
  obtain ⟨hthinking', keptThinking⟩ :=
    c.optional (by decide) survives_free hthinking (by simp [toJson, toJsonWith])
  have again : ofJson? (toJson ⟨model, messages, system, maxTokens, temperature, topP, topK, stops,
      tools, choice, stream, metadata, thinking⟩) = some ⟨model, messages, system, maxTokens,
        temperature, topP, topK, stops, tools, choice, stream, metadata, thinking⟩ :=
    bind_eq_some_of hr' <| bind_eq_some_of hmodel' <| bind_eq_some_of hmessages' <|
      bind_eq_some_of hsystem' <| bind_eq_some_of hmaxTokens' <|
      bind_eq_some_of htemperature' <| bind_eq_some_of htopP' <| bind_eq_some_of htopK' <|
      bind_eq_some_of hstops' <| bind_eq_some_of htools' <| bind_eq_some_of hchoice' <|
      bind_eq_some_of hstream' <| bind_eq_some_of hmetadata' <| bind_eq_some_of hthinking' rfl
  exact ⟨again, again.trans alike.symm, keptModel, keptMessages, keptSystem, keptMaxTokens,
    keptTemperature, keptTopP, keptTopK, keptStops, keptTools, keptChoice, keptStream, keptMetadata,
    keptThinking⟩

end Request

end Switchboard.Claude
