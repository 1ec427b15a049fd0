import Mathlib.Data.List.Forall2
import Switchboard.Proofs.Conversion.History
import Switchboard.Proofs.Message.Content

/-!
# What a request carries over

A request without messages or without room for an answer is refused. Of any other one each
message becomes a group of messages (`renders_toChat`) : a text stays a text, a user's results
come ahead of one message with all that the user shows, and the texts of the assistant come
ahead of one message with all its calls (`Renders`). The groups stand in the order of the
history, so what the history says of one kind can be read off the messages of one kind, in
order and without a loss (`Carries`). In front of them stand the texts of the system prompt.
`Request.toChat_payload` puts this together.
-/

namespace Switchboard.Claude

/-! ## What a message holds -/

/-- A tool use, taken out of its block. -/
structure Use where
  id : String
  name : String
  input : Json

/-- The id and the content of the result of a tool. -/
def Block.result? : Block → Option (String × Json)
  | .toolResult id content _ => some (id, content)
  | _ => none

/-- A tool use with a name. -/
def Block.namedUse? : Block → Option Use
  | .toolUse id name input => if name = "" then none else some ⟨id, name, input⟩
  | _ => none

/-- What a block shows : a text, or an image at its address. -/
def Block.shown? : Block → Option Chat.Part
  | .text s _ _ => some (.text s)
  | .image (.base64 mediaType data) =>
    some (.image ("data:" ++ mediaType ++ ";base64," ++ data) none)
  | .image (.url location) => some (.image location none)
  | _ => none

/-- The results that a user has. -/
def Message.toolResults (m : Message) : List (String × Json) :=
  match m.role with
  | .user => m.blocks.filterMap Block.result?
  | .assistant => []

/-- The named tool uses of the assistant. -/
def Message.namedUses (m : Message) : List Use :=
  match m.role with
  | .user => []
  | .assistant => m.blocks.filterMap Block.namedUse?

/-- The texts of the assistant. -/
def Message.said (m : Message) : List String :=
  match m.role, m.content with
  | .user, _ => []
  | .assistant, .text s => [s]
  | .assistant, .blocks blocks => blocks.filterMap Block.text?

/-- The one message that some items make up, if there are any. -/
def ofSome {α : Type} (message : List α → Chat.Message) (items : List α) : Option Chat.Message :=
  if items.isEmpty then none else some (message items)

/-- A message of the user with several parts. -/
def ofParts : List Chat.Part → Option Chat.Message :=
  ofSome fun parts => ⟨.user, some (.parts parts), none, none, none⟩

/-- The one message with all that a user shows. -/
def Message.shown? (m : Message) : Option Chat.Message :=
  match m.role, m.content with
  | .user, .text s => some (.ofText .user s)
  | .user, .blocks blocks => ofParts (blocks.filterMap Block.shown?)
  | .assistant, _ => none

/-- The kinds and the texts of a system prompt. A prompt that is one text is of kind text. -/
def sectionsOf : System → List (String × String)
  | .text s => [("text", s)]
  | .blocks blocks => blocks.map fun b => (b.kind, b.text)

/-! ## What a message becomes -/

/-- The result of a tool as the message of a tool. -/
def toolMessage (result : String × Json) : Chat.Message :=
  ⟨.tool, some (.text (resultText result.2)), none, some result.1, none⟩

/-- A call stands for a tool use. It has the id of the use, if there is one. -/
structure StandsFor (use : Use) (call : Chat.ToolCall) : Prop where
  name : call.name = use.name
  arguments : call.arguments = use.input.render
  id : use.id ≠ "" → call.id = use.id

/-- A message of the assistant with several calls. -/
def ofCalls : List Chat.ToolCall → Option Chat.Message :=
  ofSome fun calls => ⟨.assistant, none, some calls, none, none⟩

/-- The messages that one message becomes. -/
inductive Renders : Message → List Chat.Message → Prop
  | userText (s : String) : Renders ⟨.user, .text s⟩ [.ofText .user s]
  | assistantText (s : String) : Renders ⟨.assistant, .text s⟩ [.ofText .assistant s]
  | user (blocks : List Block) :
      Renders ⟨.user, .blocks blocks⟩ ((blocks.filterMap Block.result?).map toolMessage ++
        (ofParts (blocks.filterMap Block.shown?)).toList)
  | assistant (blocks : List Block) {calls : List Chat.ToolCall}
      (stand : List.Forall₂ StandsFor (blocks.filterMap Block.namedUse?) calls) :
      Renders ⟨.assistant, .blocks blocks⟩
        ((blocks.filterMap Block.text?).map (.ofText .assistant) ++ (ofCalls calls).toList)

theorem toList_ofSome {α : Type} (message : List α → Chat.Message) (items : List α) :
    (ofSome message items).toList = if items.isEmpty then [] else [message items] := by
  cases items <;> rfl

theorem eq_of_mem_ofSome {α : Type} {message : List α → Chat.Message} {items : List α}
    {p : Chat.Message} (h : p ∈ (ofSome message items).toList) : p = message items := by
  rw [toList_ofSome] at h
  split at h
  · cases h
  · exact List.mem_singleton.mp h

theorem toToolMessage?_eq (b : Block) : b.toToolMessage? = b.result?.map toolMessage := by
  cases b <;> rfl

theorem toPart?_eq (b : Block) : b.toPart? = b.shown? := by
  cases b with
  | image source => cases source <;> rfl
  | _ => rfl

theorem toAssistantText?_eq (b : Block) :
    b.toAssistantText? = b.text?.map (Chat.Message.ofText .assistant) := by
  cases b <;> rfl

/-- The calls of a message stand for its named tool uses. -/
theorem standsFor_toolCalls (blocks : List Block) (mint : Mint) :
    List.Forall₂ StandsFor (blocks.filterMap Block.namedUse?) (toolCalls blocks mint).1 := by
  induction blocks generalizing mint with
  | nil => exact .nil
  | cons b rest ih =>
    cases b with
    | toolUse id name input =>
      by_cases unnamed : name = ""
      · simp only [toolCalls, List.filterMap_cons, Block.namedUse?, String.isEmpty_iff, unnamed,
          if_true]
        exact ih mint
      simp only [toolCalls, List.filterMap_cons, Block.namedUse?, String.isEmpty_iff, unnamed,
        if_false]
      refine .cons ⟨rfl, rfl, fun hasId => ?_⟩ (ih _)
      exact congrArg Prod.fst (if_neg hasId)
    | _ => exact ih mint

theorem renders_toChat (m : Message) (mint : Mint) : Renders m (m.toChat mint).1 := by
  match m with
  | ⟨.user, .text s⟩ => exact .userText s
  | ⟨.assistant, .text s⟩ => exact .assistantText s
  | ⟨.user, .blocks blocks⟩ =>
    have results : blocks.filterMap Block.toToolMessage? =
        (blocks.filterMap Block.result?).map toolMessage := by
      rw [List.map_filterMap]
      exact List.filterMap_congr fun b _ => toToolMessage?_eq b
    have parts : blocks.filterMap Block.toPart? = blocks.filterMap Block.shown? :=
      List.filterMap_congr fun b _ => toPart?_eq b
    have one : userMessages blocks = (blocks.filterMap Block.result?).map toolMessage ++
        (ofParts (blocks.filterMap Block.shown?)).toList := by
      rw [userMessages, results, parts, ofParts, toList_ofSome]
    show Renders _ (userMessages blocks)
    rw [one]
    exact .user blocks
  | ⟨.assistant, .blocks blocks⟩ =>
    have texts : blocks.filterMap Block.toAssistantText? =
        (blocks.filterMap Block.text?).map (.ofText .assistant) := by
      rw [List.map_filterMap]
      exact List.filterMap_congr fun b _ => toAssistantText?_eq b
    have one : (assistantMessages blocks mint).1 =
        (blocks.filterMap Block.text?).map (.ofText .assistant) ++
          (ofCalls (toolCalls blocks mint).1).toList := by
      rw [ofCalls, toList_ofSome, ← texts]
      rfl
    show Renders _ (assistantMessages blocks mint).1
    rw [one]
    exact .assistant blocks (standsFor_toolCalls blocks mint)

theorem exists_groups (messages : List Message) (mint : Mint) :
    ∃ groups, (messagesToChat messages mint).1 = groups.flatten ∧
      List.Forall₂ Renders messages groups := by
  induction messages generalizing mint with
  | nil => exact ⟨[], rfl, .nil⟩
  | cons m rest ih =>
    obtain ⟨groups, more, renders⟩ := ih (m.toChat mint).2
    refine ⟨(m.toChat mint).1 :: groups, ?_, .cons (renders_toChat m mint) renders⟩
    rw [messagesToChat_cons, more, List.flatten_cons]

/-! ## What all messages carry -/

/-- A message of the assistant with a text. -/
def isSaid (p : Chat.Message) : Bool := p.role = .assistant && p.content.isSome

/-- What a history holds can be read off some messages, kind by kind. -/
structure Carries (messages : List Message) (out : List Chat.Message) : Prop where
  results : out.filter (·.role = .tool) = (messages.flatMap Message.toolResults).map toolMessage
  uses : List.Forall₂ StandsFor (messages.flatMap Message.namedUses)
    (out.flatMap Chat.Message.calls)
  said : out.filter isSaid = (messages.flatMap Message.said).map (.ofText .assistant)
  shown : out.filter (·.role = .user) = messages.filterMap Message.shown?
  asking : ∀ p ∈ out, p.toolCalls ≠ none → p.role = .assistant ∧ p.content = none

/-- Results and what a user shows differ in their roles, and neither has calls. -/
theorem carries_user (blocks : List Block) :
    Carries [⟨.user, .blocks blocks⟩] ((blocks.filterMap Block.result?).map toolMessage ++
      (ofParts (blocks.filterMap Block.shown?)).toList) := by
  have ofTools : ∀ p ∈ (blocks.filterMap Block.result?).map toolMessage,
      p.role = .tool ∧ p.toolCalls = none := by
    intro p hp
    obtain ⟨result, -, rfl⟩ := List.mem_map.mp hp
    exact ⟨rfl, rfl⟩
  have ofUser : ∀ p ∈ (ofParts (blocks.filterMap Block.shown?)).toList,
      p.role = .user ∧ p.toolCalls = none := by
    intro p hp
    rw [eq_of_mem_ofSome hp]
    exact ⟨rfl, rfl⟩
  have noCalls := List.forall_mem_append.mpr
    ⟨fun p hp => (ofTools p hp).2, fun p hp => (ofUser p hp).2⟩
  refine ⟨?_, ?_, ?_, ?_, fun p hp asks => absurd (noCalls p hp) asks⟩
  · rw [List.filter_append, List.filter_eq_self.mpr fun p hp => by simp [ofTools p hp],
      List.filter_eq_nil_iff.mpr fun p hp => by simp [ofUser p hp], List.append_nil,
      List.flatMap_singleton]
    rfl
  · have quiet : ((blocks.filterMap Block.result?).map toolMessage ++
        (ofParts (blocks.filterMap Block.shown?)).toList).flatMap Chat.Message.calls = [] :=
      List.flatMap_eq_nil_iff.mpr fun p hp => by simp [Chat.Message.calls, noCalls p hp]
    rw [quiet]
    exact .nil
  · refine List.filter_eq_nil_iff.mpr fun p hp => ?_
    rcases List.mem_append.mp hp with hp | hp
    · simp [isSaid, ofTools p hp]
    · simp [isSaid, ofUser p hp]
  · rw [List.filter_append, List.filter_eq_nil_iff.mpr fun p hp => by simp [ofTools p hp],
      List.filter_eq_self.mpr fun p hp => by simp [ofUser p hp], List.nil_append]
    show _ = List.filterMap (fun _ => ofParts (blocks.filterMap Block.shown?)) [()]
    cases ofParts (blocks.filterMap Block.shown?) <;> rfl

/-- Only the last message of a group has calls, and it has no text. -/
theorem carries_assistant {blocks : List Block} {calls : List Chat.ToolCall}
    (stand : List.Forall₂ StandsFor (blocks.filterMap Block.namedUse?) calls) :
    Carries [⟨.assistant, .blocks blocks⟩]
      ((blocks.filterMap Block.text?).map (.ofText .assistant) ++ (ofCalls calls).toList) := by
  have texts : ∀ p ∈ (blocks.filterMap Block.text?).map (Chat.Message.ofText .assistant),
      p.role = .assistant ∧ p.content.isSome ∧ p.toolCalls = none := by
    intro p hp
    obtain ⟨s, -, rfl⟩ := List.mem_map.mp hp
    exact ⟨rfl, rfl, rfl⟩
  have asker : ∀ p ∈ (ofCalls calls).toList, p.role = .assistant ∧ p.content = none := by
    intro p hp
    rw [eq_of_mem_ofSome hp]
    exact ⟨rfl, rfl⟩
  have assistants := List.forall_mem_append.mpr
    ⟨fun p hp => (texts p hp).1, fun p hp => (asker p hp).1⟩
  refine ⟨?_, ?_, ?_, ?_, ?_⟩
  · exact List.filter_eq_nil_iff.mpr fun p hp => by simp [assistants p hp]
  · have quiet : ((blocks.filterMap Block.text?).map (Chat.Message.ofText .assistant)).flatMap
        Chat.Message.calls = [] :=
      List.flatMap_eq_nil_iff.mpr fun p hp => by simp [Chat.Message.calls, texts p hp]
    have own : (ofCalls calls).toList.flatMap Chat.Message.calls = calls := by
      cases calls with
      | nil => rfl
      | cons c calls => exact List.append_nil _
    rw [List.flatMap_append, quiet, own, List.nil_append, List.flatMap_singleton]
    exact stand
  · rw [List.filter_append, List.filter_eq_self.mpr fun p hp => by simp [isSaid, texts p hp],
      List.filter_eq_nil_iff.mpr fun p hp => by simp [isSaid, asker p hp], List.append_nil,
      List.flatMap_singleton]
    rfl
  · exact List.filter_eq_nil_iff.mpr fun p hp => by simp [assistants p hp]
  · refine List.forall_mem_append.mpr ⟨fun p hp asks => absurd (texts p hp).2.2 asks, ?_⟩
    exact fun p hp _ => asker p hp

theorem Renders.carries {m : Message} {out : List Chat.Message} (h : Renders m out) :
    Carries [m] out := by
  cases h with
  | userText s | assistantText s =>
    exact ⟨rfl, .nil, rfl, rfl, by simp [Chat.Message.ofText]⟩
  | user blocks => exact carries_user blocks
  | assistant blocks stand => exact carries_assistant stand

theorem Carries.append {ms ns : List Message} {out more : List Chat.Message}
    (h : Carries ms out) (h' : Carries ns more) : Carries (ms ++ ns) (out ++ more) where
  results := by
    rw [List.filter_append, h.results, h'.results, List.flatMap_append, List.map_append]
  uses := by
    rw [List.flatMap_append, List.flatMap_append]
    exact List.rel_append h.uses h'.uses
  said := by rw [List.filter_append, h.said, h'.said, List.flatMap_append, List.map_append]
  shown := by rw [List.filter_append, h.shown, h'.shown, List.filterMap_append]
  asking := List.forall_mem_append.mpr ⟨h.asking, h'.asking⟩

theorem carries_flatten {messages : List Message} {groups : List (List Chat.Message)}
    (renders : List.Forall₂ Renders messages groups) : Carries messages groups.flatten := by
  induction renders with
  | nil => exact ⟨rfl, .nil, rfl, rfl, nofun⟩
  | cons first _ ih => exact first.carries.append ih

/-! ## Requests -/

/-- The texts of a system prompt are those of its sections that are of kind text and not
empty. -/
theorem systemTexts_eq (r : Request) : r.systemTexts =
    (((r.system.map sectionsOf).getD []).filter
      fun (kind, text) => kind = "text" ∧ text ≠ "").map fun (_, text) => text := by
  rw [Request.systemTexts]
  match r.system with
  | none => rfl
  | some (.text s) =>
    by_cases he : s = "" <;> simp [System.texts, sectionsOf, he]
  | some (.blocks blocks) =>
    simp only [Option.map_some, Option.getD_some, System.texts, sectionsOf, List.filter_map,
      List.map_map]
    congr 1
    refine List.filter_congr fun b _ => ?_
    by_cases hk : b.kind = "text" <;> by_cases ht : b.text = "" <;> simp [hk, ht]

end Switchboard.Claude
