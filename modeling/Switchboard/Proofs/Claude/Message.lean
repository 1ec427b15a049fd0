import Switchboard.Proofs.Claude.Block

/-!
# Messages that are read and written again

An answer of the native protocol (`Response.survives`) and the events of its stream
(`Event.survives`), with what is kept of each. An answer and the start of a stream have the same
members (`MessageKept`), but read the role in different ways. A usage keeps the members that are
none of its counters too.
-/

namespace Switchboard.Claude

open Json

/-! ## The parts of a message -/

theorem Role.survives (isNothing : Json → Bool) :
    Survives (Role.read? isNothing) Role.toJson (Alike (Role.read? isNothing)) :=
  survives_alike fun _ role _ _ => by cases role <;> exact ⟨rfl, nofun⟩

theorem Role.survives_ofJson : Survives Role.ofJson? Role.toJson (Alike Role.ofJson?) :=
  Role.survives isNull

theorem Role.isBlind {isNothing : Json → Bool}
    (blind : ∀ v, v.isPlain → isNothing v.sorted = isNothing v) :
    IsBlind (Role.read? isNothing) := by
  intro v plain
  rw [Role.read?, Role.read?, isBlind_name blind _ v plain]

namespace StopReason

theorem survives : Survives ofJson? toJson (Alike ofJson?) := by
  refine survives_alike fun v reason _ h => ⟨?_, nofun⟩
  unfold ofJson? at h
  split at h
  · have known := mem_of_lookup h
    simp only [named, List.mem_cons, Prod.mk.injEq, List.not_mem_nil, or_false] at known
    rcases known with ⟨-, rfl⟩ | ⟨-, rfl⟩ | ⟨-, rfl⟩ | ⟨-, rfl⟩ | ⟨-, rfl⟩ | ⟨-, rfl⟩ <;> rfl
  · rename_i unnamed
    cases v with
    | string s =>
      cases h
      rw [toJson, name, ofJson?, unnamed]
      rfl
    | _ => cases h

theorem isBlind : IsBlind ofJson? := by
  intro v plain
  rw [ofJson?, ofJson?, isBlind_name (fun v _ => isNull_sorted v) _ v plain]
  cases v <;> rfl

end StopReason

namespace Usage

/-- What is kept of a usage : its counters, and every other member. -/
structure Kept (v w : Json) : Prop where
  alike : Alike ofJson? v w
  counters : ∀ name ∈ fieldNames, KeepsMember name (Alike u32?) v w
  others : ∀ name ∉ fieldNames, KeepsMember name Verbatim v w

theorem survives : Survives ofJson? toJson Kept := by
  refine survives_record (fun _ => rfl) fun v u plain h => ?_
  have alike := h
  simp only [ofJson?, Option.bind_eq_bind, Option.bind_eq_some_iff, Prod.exists, Option.pure_def,
    Option.some.injEq] at h
  obtain ⟨r, extra, hr, input, hinput, output, houtput, creation, hcreation, reading, hreading,
    rfl⟩ := h
  obtain ⟨r', hr', c, known, others⟩ := exists_passage_open plain hr
    (rfl : toJson ⟨input, output, creation, reading, extra⟩ = ofFields (_ ++ _)) (by simp)
    (by simp [fieldNames])
  obtain ⟨hinput', keptInput⟩ := c.orDefault (by decide) survives_u32 rfl hinput
    (by rw [known _ (by decide)]; simp)
  obtain ⟨houtput', keptOutput⟩ := c.orDefault (by decide) survives_u32 rfl houtput
    (by rw [known _ (by decide)]; simp)
  obtain ⟨hcreation', keptCreation⟩ := c.optional (by decide) survives_u32 hcreation
    (by rw [known _ (by decide)]; simp)
  obtain ⟨hreading', keptReading⟩ := c.optional (by decide) survives_u32 hreading
    (by rw [known _ (by decide)]; simp)
  have again : ofJson? (toJson ⟨input, output, creation, reading, extra⟩) =
      some ⟨input, output, creation, reading, extra⟩ := by
    simp [ofJson?, hr', hinput', houtput', hcreation', hreading']
  refine ⟨again, again.trans alike.symm, ?_, fun name unknown u hu _ => ?_⟩
  · simpa [fieldNames] using ⟨keptInput, keptOutput, keptCreation, keptReading⟩
  · exact ⟨_, others name u (by simpa using unknown) hu, rfl⟩

theorem isBlind : IsBlind ofJson? :=
  isBlind_openRecord fun r r' extra s => by
    simp only [s.orDefault isBlind_u32, s.optional isBlind_u32]

end Usage

namespace ErrorBody

/-- What is kept of an error. -/
structure Kept (v w : Json) : Prop where
  alike : Alike ofJson? v w
  kind : KeepsMember "type" (Alike string?) v w
  message : KeepsMember "message" (Alike string?) v w

theorem survives : Survives ofJson? toJson Kept := by
  refine survives_record (fun _ => rfl) fun v e plain h => ?_
  have alike := h
  simp only [ofJson?, Option.bind_eq_bind, Option.bind_eq_some_iff, Option.pure_def,
    Option.some.injEq] at h
  obtain ⟨r, hr, kind, hkind, message, hmessage, rfl⟩ := h
  obtain ⟨r', hr', c⟩ := exists_passage plain hr
    (rfl : toJson ⟨kind, message⟩ = ofFields _) (by simp)
  obtain ⟨hkind', keptKind⟩ := c.required (by decide) survives_string hkind (by simp [toJson])
  obtain ⟨hmessage', keptMessage⟩ :=
    c.required (by decide) survives_string hmessage (by simp [toJson])
  have again : ofJson? (toJson ⟨kind, message⟩) = some ⟨kind, message⟩ := by
    simp [ofJson?, hr', hkind', hmessage']
  exact ⟨again, again.trans alike.symm, keptKind, keptMessage⟩

theorem isBlind : IsBlind ofJson? :=
  isBlind_record fun r r' s => by simp only [s.required isBlind_string]

end ErrorBody

/-! ## Messages -/

/-- What is kept of a message, whose role is read in one way or the other. -/
structure MessageKept (role? : Json → Option Role) (v w : Json) : Prop where
  id : KeepsMember "id" (Alike string?) v w
  kind : KeepsMember "type" (Alike string?) v w
  role : KeepsMember "role" (Alike role?) v w
  content : KeepsMember "content" (KeepsList (fun b => some (Block.ofJson b)) Block.Kept) v w
  model : KeepsMember "model" (Alike string?) v w
  stopReason : KeepsMember "stop_reason" (Alike StopReason.ofJson?) v w
  stopSequence : KeepsMember "stop_sequence" (Alike string?) v w
  usage : KeepsMember "usage" Usage.Kept v w

namespace Response

/-- What is kept of an answer. -/
def Kept (v w : Json) : Prop := Alike ofJson? v w ∧ MessageKept Role.ofJson? v w

theorem survives : Survives ofJson? toJson Kept := by
  refine survives_record (fun _ => rfl) fun v m plain h => ?_
  have alike := h
  simp only [ofJson?, Option.bind_eq_bind, Option.bind_eq_some_iff, Option.pure_def,
    Option.some.injEq] at h
  obtain ⟨r, hr, id, hid, kind, hkind, role, hrole, content, hcontent, model, hmodel, reason,
    hreason, sequence, hsequence, usage, husage, rfl⟩ := h
  obtain ⟨r', hr', c⟩ := exists_passage plain hr
    (rfl : toJson ⟨id, kind, role, content, model, reason, sequence, usage⟩ = ofFields _) (by simp)
  obtain ⟨hid', keptId⟩ := c.required (by decide) survives_string hid (by simp [toJson])
  obtain ⟨hkind', keptKind⟩ :=
    c.orDefault (by decide) survives_string rfl hkind (by simp [toJson])
  obtain ⟨hrole', keptRole⟩ := c.required (by decide) Role.survives_ofJson hrole (by simp [toJson])
  obtain ⟨hcontent', keptContent⟩ :=
    c.required (by decide) Block.survives.list hcontent (by simp [toJson])
  obtain ⟨hmodel', keptModel⟩ := c.required (by decide) survives_string hmodel (by simp [toJson])
  obtain ⟨hreason', keptReason⟩ :=
    c.nullable (by decide) StopReason.survives hreason (by simp [toJson])
  obtain ⟨hsequence', keptSequence⟩ :=
    c.optional (by decide) survives_string hsequence (by simp [toJson])
  obtain ⟨husage', keptUsage⟩ :=
    c.orDefault (by decide) Usage.survives rfl husage (by simp [toJson])
  have again : ofJson? (toJson ⟨id, kind, role, content, model, reason, sequence, usage⟩) =
      some ⟨id, kind, role, content, model, reason, sequence, usage⟩ := by
    simp only [ofJson?, hr', hid', hkind', hrole', hcontent', hmodel', hreason', hsequence',
      husage', Option.bind_eq_bind, Option.bind_some, Option.pure_def]
  exact ⟨again, again.trans alike.symm, keptId, keptKind, keptRole, keptContent, keptModel,
    keptReason, keptSequence, keptUsage⟩

end Response

namespace MessageStart

/-- A role in a stream, where an empty object beside its name counts as nothing too. -/
def role? : Json → Option Role :=
  Role.read? fun beside => beside = .null ∨ beside = .object []

theorem survives_role : Survives role? Role.toJson (Alike role?) := Role.survives _

theorem isBlind_role : IsBlind role? :=
  Role.isBlind fun v plain => by simp only [sorted_eq_null, sorted_eq_empty plain]

/-- What is kept of the start of a message. -/
def Kept (v w : Json) : Prop := Alike ofJson? v w ∧ MessageKept role? v w

theorem survives : Survives ofJson? toJson Kept := by
  refine survives_record (fun _ => rfl) fun v m plain h => ?_
  have alike := h
  simp only [ofJson?, Option.bind_eq_bind, Option.bind_eq_some_iff, Option.pure_def,
    Option.some.injEq] at h
  obtain ⟨r, hr, id, hid, kind, hkind, role, hrole, content, hcontent, model, hmodel, reason,
    hreason, sequence, hsequence, usage, husage, rfl⟩ := h
  obtain ⟨r', hr', c⟩ := exists_passage plain hr
    (rfl : toJson ⟨id, kind, role, content, model, reason, sequence, usage⟩ = ofFields _) (by simp)
  obtain ⟨hid', keptId⟩ := c.required (by decide) survives_string hid (by simp [toJson])
  obtain ⟨hkind', keptKind⟩ :=
    c.orDefault (by decide) survives_string rfl hkind (by simp [toJson])
  obtain ⟨hrole', keptRole⟩ := c.required (by decide) survives_role hrole (by simp [toJson])
  obtain ⟨hcontent', keptContent⟩ :=
    c.orDefault (by decide) Block.survives.list rfl hcontent (by simp [toJson])
  obtain ⟨hmodel', keptModel⟩ := c.required (by decide) survives_string hmodel (by simp [toJson])
  obtain ⟨hreason', keptReason⟩ :=
    c.optional (by decide) StopReason.survives hreason (by simp [toJson])
  obtain ⟨hsequence', keptSequence⟩ :=
    c.optional (by decide) survives_string hsequence (by simp [toJson])
  obtain ⟨husage', keptUsage⟩ :=
    c.orDefault (by decide) Usage.survives rfl husage (by simp [toJson])
  rw [role?] at hrole'
  have again : ofJson? (toJson ⟨id, kind, role, content, model, reason, sequence, usage⟩) =
      some ⟨id, kind, role, content, model, reason, sequence, usage⟩ := by
    simp only [ofJson?, hr', hid', hkind', hrole', hcontent', hmodel', hreason', hsequence',
      husage', Option.bind_eq_bind, Option.bind_some, Option.pure_def]
  exact ⟨again, again.trans alike.symm, keptId, keptKind, keptRole, keptContent, keptModel,
    keptReason, keptSequence, keptUsage⟩

theorem isBlind : IsBlind ofJson? :=
  isBlind_record fun r r' s => by
    simp only [s.required isBlind_string, s.orDefault isBlind_string,
      s.required (role?.eq_1 ▸ isBlind_role), s.orDefault Block.isBlind.list,
      s.optional StopReason.isBlind, s.optional isBlind_string, s.orDefault Usage.isBlind]

end MessageStart

/-! ## Events -/

namespace Event

theorem ofJson_eq : ofJson = choose forms ofForm? other := by
  funext v
  unfold ofJson choose choose?
  split <;> rename_i h <;> rw [h]

/-- A closing delta as it is written. -/
def closingJson (c : Option StopReason × Option String) : Json := ofFields
  [field "stop_reason" (orNull StopReason.toJson c.1), field "stop_sequence" (orNull .string c.2)]

/-- What is kept of a closing delta. -/
structure ClosingKept (v w : Json) : Prop where
  alike : Alike closing? v w
  stopReason : KeepsMember "stop_reason" (Alike StopReason.ofJson?) v w
  stopSequence : KeepsMember "stop_sequence" (Alike string?) v w

theorem survives_closing : Survives closing? closingJson ClosingKept := by
  refine survives_record (fun _ => rfl) fun v c plain h => ?_
  have alike := h
  simp only [closing?, Option.bind_eq_bind, Option.bind_eq_some_iff, Option.pure_def,
    Option.some.injEq] at h
  obtain ⟨r, hr, reason, hreason, sequence, hsequence, rfl⟩ := h
  obtain ⟨r', hr', c⟩ := exists_passage plain hr
    (rfl : closingJson (reason, sequence) = ofFields _) (by simp)
  obtain ⟨hreason', keptReason⟩ :=
    c.optional (by decide) StopReason.survives hreason (by simp [closingJson])
  obtain ⟨hsequence', keptSequence⟩ :=
    c.optional (by decide) survives_string hsequence (by simp [closingJson])
  have again : closing? (closingJson (reason, sequence)) = some (reason, sequence) := by
    simp only [closing?, hr', hreason', hsequence', Option.bind_eq_bind, Option.bind_some,
      Option.pure_def]
  exact ⟨again, again.trans alike.symm, keptReason, keptSequence⟩

theorem isBlind_closing : IsBlind closing? :=
  isBlind_record fun r r' s => by
    simp only [s.optional StopReason.isBlind, s.optional isBlind_string]

/-- What is kept of an event of some kind. -/
def Keeps (form : String) (v w : Json) : Prop :=
  match form with
  | "message_start" => KeepsMember "message" MessageStart.Kept v w
  | "content_block_start" => KeepsMember "index" (Alike u32?) v w ∧
    KeepsMember "content_block" Block.Kept v w
  | "content_block_delta" => KeepsMember "index" (Alike u32?) v w ∧
    KeepsMember "delta" Delta.Kept v w
  | "content_block_stop" => KeepsMember "index" (Alike u32?) v w
  | "message_delta" => KeepsMember "delta" ClosingKept v w ∧ KeepsMember "usage" Usage.Kept v w
  | "error" => KeepsMember "error" ErrorBody.Kept v w
  | _ => True

theorem formsSurvive : FormsSurvive forms ofForm? toJson Keeps where
  untagged form members := by
    unfold ofForm?
    split <;> first | rw [record?_withoutTag (by decide)] | rfl
  again {form v e} known plain h := by
    simp only [forms, List.mem_cons, List.not_mem_nil, or_false] at known
    rcases known with rfl | rfl | rfl | rfl | rfl | rfl | rfl | rfl <;>
      simp only [ofForm?, Option.bind_eq_bind, Option.bind_eq_some_iff, Option.pure_def,
        Option.map_eq_some_iff, exists_and_right, Prod.exists, Option.some.injEq] at h
    · obtain ⟨r, hr, message, hmessage, rfl⟩ := h
      obtain ⟨r', hr', c⟩ := exists_passage plain hr
        (rfl : toJson (.messageStart message) = ofFields _) (by simp)
      obtain ⟨hmessage', kept⟩ :=
        c.required (by decide) MessageStart.survives hmessage (by simp [toJson])
      refine ⟨⟨_, rfl, by simp⟩, ?_, kept⟩
      simp [ofForm?, hr', hmessage']
    · obtain ⟨r, hr, index, hindex, block, hblock, rfl⟩ := h
      obtain ⟨r', hr', c⟩ := exists_passage plain hr
        (rfl : toJson (.blockStart index block) = ofFields _) (by simp)
      obtain ⟨hindex', keptIndex⟩ := c.required (by decide) survives_u32 hindex (by simp [toJson])
      obtain ⟨hblock', keptBlock⟩ :=
        c.required (by decide) Block.survives hblock (by simp [toJson])
      refine ⟨⟨_, rfl, by simp⟩, ?_, keptIndex, keptBlock⟩
      simp [ofForm?, hr', hindex', hblock']
    · obtain ⟨r, hr, index, hindex, delta, hdelta, rfl⟩ := h
      obtain ⟨r', hr', c⟩ := exists_passage plain hr
        (rfl : toJson (.blockDelta index delta) = ofFields _) (by simp)
      obtain ⟨hindex', keptIndex⟩ := c.required (by decide) survives_u32 hindex (by simp [toJson])
      obtain ⟨hdelta', keptDelta⟩ :=
        c.required (by decide) Delta.survives hdelta (by simp [toJson])
      refine ⟨⟨_, rfl, by simp⟩, ?_, keptIndex, keptDelta⟩
      simp [ofForm?, hr', hindex', hdelta']
    · obtain ⟨r, hr, index, hindex, rfl⟩ := h
      obtain ⟨r', hr', c⟩ := exists_passage plain hr
        (rfl : toJson (.blockStop index) = ofFields _) (by simp)
      obtain ⟨hindex', kept⟩ := c.required (by decide) survives_u32 hindex (by simp [toJson])
      refine ⟨⟨_, rfl, by simp⟩, ?_, kept⟩
      simp [ofForm?, hr', hindex']
    · obtain ⟨r, hr, reason, sequence, hclosing, usage, husage, rfl⟩ := h
      obtain ⟨r', hr', c⟩ := exists_passage plain hr
        (rfl : toJson (.messageDelta reason sequence usage) = ofFields _) (by simp)
      obtain ⟨hclosing', keptClosing⟩ :=
        c.required (by decide) survives_closing hclosing (by simp [toJson, closingJson])
      obtain ⟨husage', keptUsage⟩ :=
        c.orDefault (by decide) Usage.survives rfl husage (by simp [toJson])
      refine ⟨⟨_, rfl, by simp⟩, ?_, keptClosing, keptUsage⟩
      simp [ofForm?, hr', hclosing', husage']
    · obtain ⟨-, rfl⟩ := h
      exact ⟨⟨_, rfl, by simp⟩, rfl, trivial⟩
    · obtain ⟨-, rfl⟩ := h
      exact ⟨⟨_, rfl, by simp⟩, rfl, trivial⟩
    · obtain ⟨r, hr, error, herror, rfl⟩ := h
      obtain ⟨r', hr', c⟩ := exists_passage plain hr
        (rfl : toJson (.error error) = ofFields _) (by simp)
      obtain ⟨herror', kept⟩ := c.required (by decide) ErrorBody.survives herror (by simp [toJson])
      refine ⟨⟨_, rfl, by simp⟩, ?_, kept⟩
      simp [ofForm?, hr', herror']

theorem isBlind_noFields : IsBlind noFields? := by
  intro v _
  cases v with
  | array items => cases items <;> rfl
  | _ => rfl

theorem isBlind_ofForm (form : String) : IsBlind (ofForm? form) := by
  unfold ofForm?
  split
  · exact isBlind_record fun r r' s => by simp only [s.required MessageStart.isBlind]
  · exact isBlind_record fun r r' s => by
      simp only [s.required isBlind_u32, s.required Block.isBlind]
  · exact isBlind_record fun r r' s => by
      simp only [s.required isBlind_u32, s.required Delta.isBlind]
  · exact isBlind_record fun r r' s => by simp only [s.required isBlind_u32]
  · exact isBlind_record fun r r' s => by
      simp only [s.required isBlind_closing, s.orDefault Usage.isBlind]
  · exact fun v plain => by simp only [isBlind_noFields v plain]
  · exact fun v plain => by simp only [isBlind_noFields v plain]
  · exact isBlind_record fun r r' s => by simp only [s.required ErrorBody.isBlind]
  · exact fun _ _ => rfl

/-- What is kept of an event. -/
def Kept (v w : Json) : Prop := ofJson w = ofJson v ∧ KeepsOpen forms ofForm? Keeps v w

theorem survives : Survives (fun v => some (ofJson v)) toJson Kept :=
  formsSurvive.survives_read isBlind_ofForm (fun _ => rfl) ofJson_eq

end Event

end Switchboard.Claude
