import Switchboard.Proofs.Conversion.Turns

/-!
# Names of functions

A result of a tool has the id of a call, and a response for Gemini the name of a function. The
name is looked up among the calls of the messages in front, the latest one first, and if it is
not there, it is read off the id.

Messages of tools give one response each and nothing else gives any (`responses_contents`). What
one message of a request becomes has either no messages of tools or none of the assistant, so all
its responses see the calls of the messages before it (`responses_group`), and these calls stand
for the tool uses that came before (`callsAmong_group`). By induction over the history each
result has its response, in order, with the name that `Answers` says
(`Request.toGemini_functionNames`).
-/

namespace Switchboard

namespace Claude

/-! ## Tool uses and their results -/

/-- The tool use that a block is. -/
def Block.use? : Block → Option Use
  | .toolUse id name input => some ⟨id, name, input⟩
  | _ => none

/-- All tool uses of a message. -/
def Message.uses (m : Message) : List Use := m.blocks.filterMap Block.use?

/-- Only the assistant uses tools, and its tool uses have an id and a name. -/
def Message.IsOrderly (m : Message) : Prop :=
  ∀ use ∈ m.uses, m.role = .assistant ∧ use.id ≠ "" ∧ use.name ≠ ""

instance (m : Message) : Decidable m.IsOrderly :=
  inferInstanceAs (Decidable (∀ use ∈ m.uses, _))

/-- The calls that tool uses become, the latest one first. -/
def callNamesOf (uses : List Use) : Chat.CallNames := (uses.map fun u => (u.id, u.name)).reverse

/-- A response answers with the result of a tool, behind some tool uses. It has the name of the
latest one with the id of the result. If there is none, and the id was made for a call of Gemini,
it has the name of the function that was called. -/
structure Answers (uses : List Use) (result : String × Json) (response : Gemini.FunctionResponse) :
    Prop where
  latest : ∀ before use after, uses = before ++ use :: after → use.id = result.1 →
    (∀ later ∈ after, later.id ≠ result.1) → response.name = use.name
  minted : (∀ use ∈ uses, use.id ≠ result.1) → ∀ called position, called ≠ "" →
    result.1 = Gemini.callId called position → response.name = called
  content : ∀ names, response.response = ((toolMessage result).functionResponse names).response

theorem lookup_callNamesOf {uses : List Use} {id : String} (h : ∀ u ∈ uses, u.id ≠ id) :
    (callNamesOf uses).lookup id = none := by
  refine List.lookup_eq_none_iff.mpr fun p hp => ?_
  obtain ⟨u, hu, rfl⟩ := List.mem_map.mp (List.mem_reverse.mp hp)
  simpa using (h u hu).symm

theorem lookup_callNamesOf_append {use : Use} {after : List Use} {id : String} (same : use.id = id)
    (h : ∀ u ∈ after, u.id ≠ id) (before : List Use) :
    (callNamesOf (before ++ use :: after)).lookup id = some use.name := by
  have split : callNamesOf (before ++ use :: after) =
      callNamesOf after ++ (use.id, use.name) :: callNamesOf before := by
    simp [callNamesOf]
  rw [split, List.lookup_append, lookup_callNamesOf h, same, List.lookup_cons_self]
  rfl

/-- The message of a tool becomes the answer, if the calls known to it are those of the uses. -/
theorem answers_functionResponse (uses : List Use) (result : String × Json) :
    Answers uses result ((toolMessage result).functionResponse (callNamesOf uses)) where
  latest before use after split same others := by
    show ((callNamesOf uses).lookup result.1).getD _ = use.name
    rw [split, lookup_callNamesOf_append same others]
    rfl
  minted none called position named made := by
    show ((callNamesOf uses).lookup result.1).getD (Gemini.functionName result.1) = called
    rw [lookup_callNamesOf none, made]
    exact Gemini.functionName_callId named position
  content _ := rfl

end Claude

/-! ## Responses -/

namespace Chat

/-- The response that a message gives behind other ones. -/
def Message.responses (earlier : List Message) (m : Message) : List Gemini.FunctionResponse :=
  if m.role = .tool then [m.functionResponse (callsAmong earlier)] else []

theorem functionResponse_of_mem_userParts {m : Message} {p : Gemini.Part} (hp : p ∈ m.userParts) :
    p.functionResponse = none := by
  unfold Message.userParts at hp
  split at hp
  · cases hp
  · obtain rfl := List.mem_singleton.mp hp
    rfl
  · obtain ⟨part, -, hp⟩ := List.mem_filterMap.mp hp
    cases part with
    | text s =>
      obtain rfl := Option.some.inj hp
      rfl
    | image location detail =>
      obtain ⟨d, -, rfl⟩ := Option.map_eq_some_iff.mp hp
      rfl

theorem functionResponse_of_mem_modelParts {m : Message} {p : Gemini.Part}
    (hp : p ∈ m.modelParts) : p.functionResponse = none := by
  rcases List.mem_append.mp hp with hp | hp
  · split at hp
    · cases hp
    · obtain rfl := List.mem_singleton.mp hp
      rfl
  · obtain ⟨c, -, rfl⟩ := List.mem_map.mp hp
    rfl

theorem responses_yields (earlier : List Message) (m : Message) :
    (m.yields earlier).flatMap (fun p => p.functionResponse.toList) = m.responses earlier := by
  unfold Message.yields Message.responses
  cases m.role with
  | system | tool => rfl
  | user =>
    exact List.flatMap_eq_nil_iff.mpr fun p hp => by rw [functionResponse_of_mem_userParts hp]; rfl
  | assistant =>
    exact List.flatMap_eq_nil_iff.mpr fun p hp => by rw [functionResponse_of_mem_modelParts hp]; rfl

/-- The responses among the contents are those that the messages of tools give. -/
theorem responses_contents (q : Request) :
    (q.toGemini.contents.flatMap (·.parts)).filterMap (·.functionResponse) =
      flatMapBehind (fun earlier m => m.responses earlier) [] q.messages := by
  rw [parts_contents, List.filterMap_eq_flatMap_toList, flatMap_flatMapBehind]
  simp only [responses_yields]

/-- Messages that are not both of the assistant and of tools all give their responses behind the
same calls. -/
theorem responses_of_oneSided {out : List Message}
    (side : (∀ p ∈ out, p.role ≠ .assistant) ∨ ∀ p ∈ out, p.role ≠ .tool)
    (earlier : List Message) : flatMapBehind (fun earlier m => m.responses earlier) earlier out =
      (out.filter (·.role = .tool)).map (·.functionResponse (callsAmong earlier)) := by
  induction out generalizing earlier with
  | nil => rfl
  | cons p out ih =>
    have ih := ih (side.imp (fun h p hp => h p (List.mem_cons_of_mem _ hp))
      fun h p hp => h p (List.mem_cons_of_mem _ hp)) (earlier ++ [p])
    rw [flatMapBehind, ih, callsAmong_concat]
    by_cases tool : p.role = .tool
    · simp [Message.responses, tool]
    rcases side with h | h
    · simp [Message.responses, tool, h p List.mem_cons_self]
    · have none : out.filter (·.role = .tool) = [] :=
        List.filter_eq_nil_iff.mpr fun p hp => by simp [h p (List.mem_cons_of_mem _ hp)]
      simp [Message.responses, tool, none]

end Chat

namespace Claude

/-! ## What a message becomes, behind other ones -/

theorem Renders.oneSided {m : Message} {out : List Chat.Message} (h : Renders m out) :
    (∀ p ∈ out, p.role ≠ .assistant) ∨ ∀ p ∈ out, p.role ≠ .tool := by
  cases h with
  | userText s | assistantText s =>
    exact .inr (List.forall_mem_singleton.mpr (by simp [Chat.Message.ofText]))
  | user blocks =>
    refine .inl (List.forall_mem_append.mpr ⟨fun p hp => ?_, fun p hp => ?_⟩)
    · obtain ⟨result, -, rfl⟩ := List.mem_map.mp hp
      simp [toolMessage]
    · simp [eq_of_mem_ofSome hp]
  | assistant blocks stand =>
    refine .inr (List.forall_mem_append.mpr ⟨fun p hp => ?_, fun p hp => ?_⟩)
    · obtain ⟨s, -, rfl⟩ := List.mem_map.mp hp
      simp [Chat.Message.ofText]
    · simp [eq_of_mem_ofSome hp]

/-- What a message becomes gives a response for each result of it. -/
theorem responses_group {m : Message} {out : List Chat.Message} (renders : Renders m out)
    (earlier : List Chat.Message) :
    flatMapBehind (fun earlier m => m.responses earlier) earlier out =
      m.toolResults.map fun result =>
        (toolMessage result).functionResponse (Chat.callsAmong earlier) := by
  rw [Chat.responses_of_oneSided renders.oneSided, renders.carries.results,
    List.flatMap_singleton, List.map_map]
  rfl

theorem Message.IsOrderly.namedUses_eq {m : Message} (orderly : m.IsOrderly) :
    m.namedUses = m.uses := by
  have named : ∀ b ∈ m.blocks, b.namedUse? = b.use? := by
    intro b hb
    cases b with
    | toolUse id name input =>
      obtain ⟨-, -, named⟩ := orderly ⟨id, name, input⟩ (List.mem_filterMap.mpr ⟨_, hb, rfl⟩)
      exact if_neg named
    | _ => rfl
  rw [Message.namedUses, Message.uses]
  cases role : m.role with
  | assistant => exact List.filterMap_congr named
  | user =>
    refine (List.eq_nil_iff_forall_not_mem.mpr fun use hu => ?_).symm
    exact absurd (role.symm.trans (orderly use hu).1) nofun

theorem callNames_of_standsFor {uses : List Use} {calls : List Chat.ToolCall}
    (stand : List.Forall₂ StandsFor uses calls) (hasId : ∀ use ∈ uses, use.id ≠ "") :
    (calls.map fun c => (c.id, c.name)).reverse = callNamesOf uses := by
  refine congrArg List.reverse ?_
  induction stand with
  | nil => rfl
  | cons first _ ih =>
    obtain ⟨hasIdFirst, hasIdRest⟩ := List.forall_mem_cons.mp hasId
    rw [List.map_cons, List.map_cons, first.id hasIdFirst, first.name, ih hasIdRest]

/-- The calls of what an orderly message becomes are those of its tool uses. -/
theorem callsAmong_group {m : Message} {out : List Chat.Message} (orderly : m.IsOrderly)
    (renders : Renders m out) : Chat.callsAmong out = callNamesOf m.uses := by
  have carries := renders.carries
  have uses : List.Forall₂ StandsFor m.uses (out.flatMap Chat.Message.calls) := by
    have h := carries.uses
    rwa [List.flatMap_singleton, orderly.namedUses_eq] at h
  have all : (out.filter (·.role = .assistant)).flatMap
      (fun p => p.calls.map fun c => (c.id, c.name)) =
      (out.flatMap Chat.Message.calls).map fun c => (c.id, c.name) := by
    rw [Chat.flatMap_filter, List.map_flatMap]
    refine List.flatMap_congr fun p hp => ?_
    by_cases asks : p.toolCalls = none
    · simp [Chat.Message.calls, asks]
    · simp [(carries.asking p hp asks).1]
  rw [Chat.callsAmong, all, callNames_of_standsFor uses fun use hu => (orderly use hu).2.1]

/-- Behind messages that are done, the results of the other ones are answered in order. -/
theorem answers_groups {messages : List Message} {groups : List (List Chat.Message)}
    (renders : List.Forall₂ Renders messages groups) (orderly : ∀ m ∈ messages, m.IsOrderly)
    {past : List Message} {earlier : List Chat.Message}
    (known : Chat.callsAmong earlier = callNamesOf (past.flatMap Message.uses)) :
    List.Forall₂ (fun (uses, result) response => Answers uses result response)
      (flatMapBehind (fun past m => m.toolResults.map (past.flatMap Message.uses, ·)) past messages)
      (flatMapBehind (fun earlier m => m.responses earlier) earlier groups.flatten) := by
  -- `known` is kept from message to message : a group adds the calls of its tool uses.
  induction renders generalizing past earlier with
  | nil => exact .nil
  | @cons m out messages groups first _ ih =>
    obtain ⟨orderlyFirst, orderlyRest⟩ := List.forall_mem_cons.mp orderly
    have later : Chat.callsAmong (earlier ++ out) =
        callNamesOf ((past ++ [m]).flatMap Message.uses) := by
      rw [Chat.callsAmong_append, callsAmong_group orderlyFirst first, known]
      simp [callNamesOf]
    rw [List.flatten_cons, flatMapBehind_append, flatMapBehind, responses_group first, known]
    refine List.rel_append ?_ (ih orderlyRest later)
    refine List.forall₂_map_left_iff.mpr (List.forall₂_map_right_iff.mpr ?_)
    exact List.forall₂_same.mpr fun result _ => answers_functionResponse _ result

/-- The responses among the contents answer the results of the users' messages, one for each and
in their order, each one behind the tool uses of the messages before. -/
theorem Request.toGemini_functionNames {r : Request} (mint : Mint) (valid : r.check = .ok ())
    (orderly : ∀ m ∈ r.messages, m.IsOrderly) :
    ∃ q mint', r.toChat mint = (.ok q, mint') ∧
      List.Forall₂ (fun (uses, result) response => Answers uses result response)
        (flatMapBehind (fun past m => m.toolResults.map (past.flatMap Message.uses, ·)) []
          r.messages)
        ((q.toGemini.contents.flatMap (·.parts)).filterMap (·.functionResponse)) := by
  obtain ⟨q, mint', accepted⟩ := accepted_of_check valid mint
  refine ⟨q, mint', accepted, ?_⟩
  obtain ⟨groups, flat, renders⟩ := exists_groups r.messages mint
  have instruction : ∀ p ∈ r.systemTexts.map (Chat.Message.ofText .system), p.role = .system := by
    intro p hp
    obtain ⟨s, -, rfl⟩ := List.mem_map.mp hp
    rfl
  rw [Chat.responses_contents, messages_toChat accepted, flat, flatMapBehind_append,
    Chat.responses_of_oneSided (.inr fun p hp => by simp [instruction p hp]),
    List.filter_eq_nil_iff.mpr fun p hp => by simp [instruction p hp], List.map_nil,
    List.nil_append]
  refine answers_groups renders orderly ?_
  simp [Chat.callsAmong, callNamesOf, Chat.Message.ofText]

/-- Two calls with one id, each with its result, and the result of a call of Gemini that is not
in the history. -/
def oneIdTwice : Request where
  model := "m"
  messages := [⟨.assistant, .blocks [.toolUse "a" "f" (.object [])]⟩,
    ⟨.user, .blocks [.plain "Here.", .toolResult "a" .null none]⟩,
    ⟨.assistant, .blocks [.plain "Again.", .toolUse "a" "g" (.object [])]⟩,
    ⟨.user, .blocks [.toolResult "call_call_2_b_10" .null none, .toolResult "a" .null none]⟩]
  system := some (.text "Be brief.")
  maxTokens := 10
  temperature := none
  topP := none
  topK := none
  stopSequences := none
  tools := none
  toolChoice := none
  stream := none
  metadata := none
  thinking := none

theorem toGemini_functionNames_oneIdTwice : ∃ q mint', oneIdTwice.toChat ⟨⟨0⟩, 0⟩ = (.ok q, mint') ∧
    ((q.toGemini.contents.flatMap (·.parts)).filterMap (·.functionResponse)).map (·.name) =
      ["f", "call_2_b", "g"] := by
  obtain ⟨q, mint', accepted, answers⟩ :=
    Request.toGemini_functionNames ⟨⟨0⟩, 0⟩ (show oneIdTwice.check = .ok () from rfl) (by decide)
  refine ⟨q, mint', accepted, ?_⟩
  have results : flatMapBehind (fun past m => m.toolResults.map (past.flatMap Message.uses, ·)) []
      oneIdTwice.messages =
      [([⟨"a", "f", .object []⟩], ("a", .null)),
        ([⟨"a", "f", .object []⟩, ⟨"a", "g", .object []⟩], ("call_call_2_b_10", .null)),
        ([⟨"a", "f", .object []⟩, ⟨"a", "g", .object []⟩], ("a", .null))] := rfl
  rw [results] at answers
  generalize (q.toGemini.contents.flatMap (·.parts)).filterMap (·.functionResponse) = responses
    at answers
  obtain _ | ⟨first, _ | ⟨second, _ | ⟨third, _ | _⟩⟩⟩ := answers
  rw [List.map_cons, List.map_cons, List.map_cons, List.map_nil,
    first.latest [] ⟨"a", "f", .object []⟩ [] rfl rfl nofun,
    second.minted (by decide) "call_2_b" 10 (by decide) (by decide),
    third.latest [⟨"a", "f", .object []⟩] ⟨"a", "g", .object []⟩ [] rfl rfl nofun]

end Claude

end Switchboard
