import Switchboard.Chat.Chunk
import Switchboard.Proofs.Chat.Request

/-!
# Chat answers that are read and written again

`Response.survives` for whole answers, and `Chunk.survives` for the pieces of a streamed one. A
finish reason that is the empty text is read as none, and written as null, which is read as none
again (`finishReason?_again`).
-/

namespace Switchboard.Chat

open Json

/-! ## Finish reasons and usage -/

theorem FinishReason.survives :
    Survives FinishReason.ofJson? FinishReason.toJson (Alike FinishReason.ofJson?) := by
  refine survives_alike fun v reason _ h => ⟨?_, nofun⟩
  unfold ofJson? at h
  split at h
  · have known := mem_of_lookup h
    simp only [named, List.mem_cons, Prod.mk.injEq, List.not_mem_nil, or_false] at known
    rcases known with ⟨-, rfl⟩ | ⟨-, rfl⟩ | ⟨-, rfl⟩ | ⟨-, rfl⟩ | ⟨-, rfl⟩ <;> rfl
  · rename_i unnamed
    cases v with
    | string s =>
      cases h
      rw [toJson, name, ofJson?, unnamed]
      rfl
    | _ => cases h

/-- A reason that says nothing is written as null, and any other is read again. -/
theorem finishReason?_again {names : List String} {v w : Json} {r r' : Record}
    (c : Passage names v r w r') (known : names.contains "finish_reason")
    {reason : Option FinishReason} (h : finishReason? r = some reason)
    (written : w.get? "finish_reason" = some (orNull FinishReason.toJson reason)) :
    finishReason? r' = some reason := by
  obtain ⟨given, hgiven, h⟩ := Option.bind_eq_some_iff.mp h
  obtain rfl := Option.some_inj.mp h
  have found := (c.again known).trans written
  cases hf : given.filter fun f => f != .other "" with
  | none =>
    rw [hf] at found
    rw [finishReason?, Record.optional_some found]
    rfl
  | some f =>
    rw [hf] at found written
    obtain ⟨rfl, -⟩ := Option.filter_eq_some_iff.mp hf
    have again := (c.optional known FinishReason.survives hgiven (Or.inr written)).1
    exact bind_eq_some_of again (congrArg some hf)

theorem Usage.survives : Survives Usage.ofJson? Usage.toJson (Alike Usage.ofJson?) := by
  refine survives_alike_record (fun _ => rfl) fun v u plain h => ?_
  simp only [ofJson?, Option.bind_eq_bind, Option.bind_eq_some_iff, Option.pure_def,
    Option.some.injEq] at h
  obtain ⟨r, hr, prompt, hprompt, completion, hcompletion, total, htotal, rfl⟩ := h
  obtain ⟨r', hr', c⟩ := exists_passage plain hr
    (rfl : toJson ⟨prompt, completion, total⟩ = ofFields _) (by simp)
  have hprompt' := (c.orDefault (by decide) survives_u32 rfl hprompt (by simp [toJson])).1
  have hcompletion' :=
    (c.orDefault (by decide) survives_u32 rfl hcompletion (by simp [toJson])).1
  have htotal' := (c.orDefault (by decide) survives_u32 rfl htotal (by simp [toJson])).1
  exact bind_eq_some_of hr' <| bind_eq_some_of hprompt' <| bind_eq_some_of hcompletion' <|
    bind_eq_some_of htotal' rfl

/-! ## Whole answers -/

theorem Choice.survives : Survives Choice.ofJson? Choice.toJson (Alike Choice.ofJson?) := by
  refine survives_alike_record (fun _ => rfl) fun v choice plain h => ?_
  simp only [ofJson?, Option.bind_eq_bind, Option.bind_eq_some_iff, Option.pure_def,
    Option.some.injEq] at h
  obtain ⟨r, hr, index, hindex, message, hmessage, reason, hreason, rfl⟩ := h
  obtain ⟨r', hr', c⟩ := exists_passage plain hr
    (rfl : toJson ⟨index, message, reason⟩ = ofFields _) (by simp)
  have hindex' := (c.orDefault (by decide) survives_u32 rfl hindex (by simp [toJson])).1
  have hmessage' := (c.required (by decide) Message.survives hmessage (by simp [toJson])).1
  have hreason' := finishReason?_again c (by decide) hreason (by simp [toJson])
  exact bind_eq_some_of hr' <| bind_eq_some_of hindex' <| bind_eq_some_of hmessage' <|
    bind_eq_some_of hreason' rfl

theorem Response.survives : Survives Response.ofJson? Response.toJson (Alike Response.ofJson?) := by
  refine survives_alike_record (fun _ => rfl) fun v m plain h => ?_
  simp only [ofJson?, Option.bind_eq_bind, Option.bind_eq_some_iff, Option.pure_def,
    Option.some.injEq] at h
  obtain ⟨r, hr, id, hid, object, hobject, created, hcreated, model, hmodel, choices, hchoices,
    usage, husage, rfl⟩ := h
  obtain ⟨r', hr', c⟩ := exists_passage plain hr
    (rfl : toJson ⟨id, object, created, model, choices, usage⟩ = ofFields _) (by simp)
  have hid' := (c.orDefault (by decide) survives_string rfl hid (by simp [toJson])).1
  have hobject' := (c.orDefault (by decide) survives_string rfl hobject (by simp [toJson])).1
  have hcreated' := (c.orDefault (by decide) survives_u64 rfl hcreated (by simp [toJson])).1
  have hmodel' := (c.orDefault (by decide) survives_string rfl hmodel (by simp [toJson])).1
  have hchoices' :=
    (c.orDefault (by decide) Choice.survives.list rfl hchoices (by simp [toJson])).1
  have husage' := (c.optional (by decide) Usage.survives husage (by simp [toJson])).1
  exact bind_eq_some_of hr' <| bind_eq_some_of hid' <| bind_eq_some_of hobject' <|
    bind_eq_some_of hcreated' <| bind_eq_some_of hmodel' <| bind_eq_some_of hchoices' <|
    bind_eq_some_of husage' rfl

/-! ## Streamed answers -/

namespace ToolCallDelta

/-- The function in a piece of a call, as it is written. -/
def functionJson (f : Option String × Option String) : Json :=
  ofFields [fieldIf "name" .string f.1, fieldIf "arguments" .string f.2]

theorem survives_function : Survives function? functionJson (Alike function?) := by
  refine survives_alike_record (fun _ => rfl) fun v f plain h => ?_
  simp only [function?, Option.bind_eq_bind, Option.bind_eq_some_iff, Option.pure_def,
    Option.some.injEq] at h
  obtain ⟨r, hr, name, hname, arguments, harguments, rfl⟩ := h
  obtain ⟨r', hr', c⟩ := exists_passage plain hr
    (rfl : functionJson (name, arguments) = ofFields _) (by simp)
  have hname' := (c.optional (by decide) survives_string hname (by simp [functionJson])).1
  have harguments' :=
    (c.optional (by decide) survives_string harguments (by simp [functionJson])).1
  exact bind_eq_some_of hr' <| bind_eq_some_of hname' <| bind_eq_some_of harguments' rfl

theorem survives : Survives ofJson? toJson (Alike ofJson?) := by
  refine survives_alike_record (fun _ => rfl) fun v d plain h => ?_
  simp only [ofJson?, Option.bind_eq_bind, Option.bind_eq_some_iff, Option.pure_def,
    Option.some.injEq] at h
  obtain ⟨r, hr, index, hindex, id, hid, kind, hkind, function, hfunction, rfl⟩ := h
  obtain ⟨r', hr', c⟩ := exists_passage plain hr
    (rfl : toJson ⟨index, id, kind.isSome, function⟩ = ofFields _) (by simp)
  have hindex' := (c.orDefault (by decide) survives_u32 rfl hindex (by simp [toJson])).1
  have hid' := (c.optional (by decide) survives_string hid (by simp [toJson])).1
  have hkind' := (c.optional (by decide) survives_functionKind hkind
    (by cases kind <;> simp [toJson])).1
  have hfunction' :=
    (c.optional (by decide) survives_function hfunction (Or.inl (by simp [toJson]; rfl))).1
  exact bind_eq_some_of hr' <| bind_eq_some_of hindex' <| bind_eq_some_of hid' <|
    bind_eq_some_of hkind' <| bind_eq_some_of hfunction' rfl

end ToolCallDelta

theorem ThinkingDelta.survives :
    Survives ThinkingDelta.ofJson? ThinkingDelta.toJson (Alike ThinkingDelta.ofJson?) := by
  refine survives_alike_record (fun _ => rfl) fun v d plain h => ?_
  simp only [ofJson?, Option.bind_eq_bind, Option.bind_eq_some_iff, Option.pure_def,
    Option.some.injEq] at h
  obtain ⟨r, hr, content, hcontent, signature, hsignature, rfl⟩ := h
  obtain ⟨r', hr', c⟩ := exists_passage plain hr
    (rfl : toJson ⟨content, signature⟩ = ofFields _) (by simp)
  have hcontent' := (c.optional (by decide) survives_string hcontent (by simp [toJson])).1
  have hsignature' := (c.optional (by decide) survives_string hsignature (by simp [toJson])).1
  exact bind_eq_some_of hr' <| bind_eq_some_of hcontent' <| bind_eq_some_of hsignature' rfl

theorem Delta.survives : Survives Delta.ofJson? Delta.toJson (Alike Delta.ofJson?) := by
  refine survives_alike_record (fun _ => rfl) fun v d plain h => ?_
  simp only [ofJson?, Option.bind_eq_bind, Option.bind_eq_some_iff, Option.pure_def,
    Option.some.injEq] at h
  obtain ⟨r, hr, role, hrole, content, hcontent, reasoning, hreasoning, thinking, hthinking,
    calls, hcalls, rfl⟩ := h
  obtain ⟨r', hr', c⟩ := exists_passage plain hr
    (rfl : toJson ⟨role, content, reasoning, thinking, calls⟩ = ofFields _) (by simp)
  have hrole' := (c.optional (by decide) Role.survives hrole (by simp [toJson])).1
  have hcontent' := (c.optional (by decide) survives_string hcontent (by simp [toJson])).1
  have hreasoning' := (c.optional (by decide) survives_string hreasoning (by simp [toJson])).1
  have hthinking' :=
    (c.optional (by decide) ThinkingDelta.survives hthinking (by simp [toJson])).1
  have hcalls' :=
    (c.optional (by decide) ToolCallDelta.survives.list hcalls (by simp [toJson])).1
  exact bind_eq_some_of hr' <| bind_eq_some_of hrole' <| bind_eq_some_of hcontent' <|
    bind_eq_some_of hreasoning' <| bind_eq_some_of hthinking' <| bind_eq_some_of hcalls' rfl

theorem ChunkChoice.survives :
    Survives ChunkChoice.ofJson? ChunkChoice.toJson (Alike ChunkChoice.ofJson?) := by
  refine survives_alike_record (fun _ => rfl) fun v choice plain h => ?_
  simp only [ofJson?, Option.bind_eq_bind, Option.bind_eq_some_iff, Option.pure_def,
    Option.some.injEq] at h
  obtain ⟨r, hr, index, hindex, delta, hdelta, reason, hreason, rfl⟩ := h
  obtain ⟨r', hr', c⟩ := exists_passage plain hr
    (rfl : toJson ⟨index, delta, reason⟩ = ofFields _) (by simp)
  have hindex' := (c.orDefault (by decide) survives_u32 rfl hindex (by simp [toJson])).1
  have hdelta' := (c.orDefault (by decide) Delta.survives rfl hdelta (by simp [toJson])).1
  have hreason' := finishReason?_again c (by decide) hreason (by simp [toJson])
  exact bind_eq_some_of hr' <| bind_eq_some_of hindex' <| bind_eq_some_of hdelta' <|
    bind_eq_some_of hreason' rfl

theorem Chunk.survives : Survives Chunk.ofJson? Chunk.toJson (Alike Chunk.ofJson?) := by
  refine survives_alike_record (fun _ => rfl) fun v chunk plain h => ?_
  simp only [ofJson?, Option.bind_eq_bind, Option.bind_eq_some_iff, Option.pure_def,
    Option.some.injEq] at h
  obtain ⟨r, hr, id, hid, object, hobject, created, hcreated, model, hmodel, choices, hchoices,
    usage, husage, rfl⟩ := h
  obtain ⟨r', hr', c⟩ := exists_passage plain hr
    (rfl : toJson ⟨id, object, created, model, choices, usage⟩ = ofFields _) (by simp)
  have hid' := (c.orDefault (by decide) survives_string rfl hid (by simp [toJson])).1
  have hobject' := (c.orDefault (by decide) survives_string rfl hobject (by simp [toJson])).1
  have hcreated' := (c.orDefault (by decide) survives_u64 rfl hcreated (by simp [toJson])).1
  have hmodel' := (c.orDefault (by decide) survives_string rfl hmodel (by simp [toJson])).1
  have hchoices' :=
    (c.orDefault (by decide) ChunkChoice.survives.list rfl hchoices (by simp [toJson])).1
  have husage' := (c.optional (by decide) Usage.survives husage (by simp [toJson])).1
  exact bind_eq_some_of hr' <| bind_eq_some_of hid' <| bind_eq_some_of hobject' <|
    bind_eq_some_of hcreated' <| bind_eq_some_of hmodel' <| bind_eq_some_of hchoices' <|
    bind_eq_some_of husage' rfl

end Switchboard.Chat
