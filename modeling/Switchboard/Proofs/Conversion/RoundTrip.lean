import Mathlib.Data.List.Forall2
import Switchboard.Conversion.ChatToClaude
import Switchboard.Proofs.Conversion.History
import Switchboard.Proofs.Json.ReadBack
import Switchboard.Proofs.Merging.Whole

/-!
# Tool uses come back

A tool use of the assistant is sent to a chat provider as a call, with its input written out
as a text. Had a provider answered with that call, it would be made into a tool use again. With
an id, a name and an input that is read back from its text, that is the tool use it was
(`toBlock_toolCalls`).

Of the messages that one message becomes, at most one has calls, and it has all of them
(`bearers_toChat`). So in the request to the provider the messages with calls stand as the
messages that use tools stand in the history, and each of them, given as an answer, comes back
as the tool uses of the other one (`Request.toChat_toolUses`).
-/

namespace Switchboard

namespace Json

/-- A value as it is kept that can be read back from its text : its members are in key order,
its numbers are whole ones of 64 bits, and it is not nested too deep. -/
structure IsLegible (v : Json) : Prop where
  plain : v.isPlain
  inOrder : v.sorted = v
  shallow : v.depth ≤ 127

instance (v : Json) : Decidable v.IsLegible :=
  decidable_of_iff (v.isPlain ∧ v.sorted = v ∧ v.depth ≤ 127)
    ⟨fun ⟨plain, inOrder, shallow⟩ => ⟨plain, inOrder, shallow⟩,
      fun ⟨plain, inOrder, shallow⟩ => ⟨plain, inOrder, shallow⟩⟩

end Json

namespace Claude

/-! ## Calls and tool uses -/

/-- A tool use has an id, a name and a legible input. -/
def Block.IsSound : Block → Prop
  | .toolUse id name input => id ≠ "" ∧ name ≠ "" ∧ input.IsLegible
  | _ => True

instance : (b : Block) → Decidable b.IsSound
  | .toolUse _ _ _ => inferInstanceAs (Decidable (_ ∧ _ ∧ _))
  | .text _ _ _ | .image _ | .toolResult _ _ _ | .thinking _ _ | .redactedThinking _ | .other _ =>
    isTrue trivial

/-- A block that becomes a call : a tool use with a name. -/
def Block.isCalled : Block → Bool
  | .toolUse _ name _ => !name.isEmpty
  | _ => false

/-- The text of a legible value stands for that value. -/
theorem parseArguments_render {v : Json} (legible : v.IsLegible) :
    Chat.parseArguments v.render = v := by
  have read : Json.parse? v.render = some v := Json.parse?_render legible.plain legible.shallow
  rw [Relay.Merging.parseArguments_of_parse? read, legible.inOrder]

/-- The calls of sound blocks stand for the tool uses among them. -/
theorem toBlock_toolCalls {blocks : List Block} (sound : ∀ b ∈ blocks, b.IsSound) (mint : Mint) :
    (toolCalls blocks mint).1.map Chat.ToolCall.toBlock = toolUses blocks := by
  induction blocks generalizing mint with
  | nil => rfl
  | cons b rest ih =>
    have ih := ih fun b hb => sound b (List.mem_cons_of_mem _ hb)
    cases b with
    | toolUse id name input =>
      obtain ⟨hasId, hasName, legible⟩ : id ≠ "" ∧ name ≠ "" ∧ input.IsLegible :=
        sound _ List.mem_cons_self
      have same : Chat.ToolCall.toBlock ⟨id, name, input.render⟩ = .toolUse id name input := by
        rw [Chat.ToolCall.toBlock, parseArguments_render legible]
      simp only [toolCalls, String.isEmpty_iff, hasName, hasId, if_false, List.map_cons, same, ih]
      rfl
    | _ => exact ih mint

theorem isEmpty_toolCalls (blocks : List Block) (mint : Mint) :
    (toolCalls blocks mint).1.isEmpty = !blocks.any Block.isCalled := by
  induction blocks generalizing mint with
  | nil => rfl
  | cons b rest ih =>
    cases b with
    | toolUse id name input =>
      by_cases unnamed : name.isEmpty
      · simp [toolCalls, Block.isCalled, unnamed, ih]
      · simp [toolCalls, Block.isCalled, unnamed]
    | _ => exact ih mint

/-! ## Messages with calls -/

/-- A message of the assistant with a tool use that becomes a call. -/
def Message.asks (m : Message) : Bool := m.role = .assistant && m.blocks.any Block.isCalled

/-- A message that bears calls. -/
def bearsCalls (p : Chat.Message) : Bool := p.toolCalls.isSome

/-- Who bears the calls of a message. -/
def Message.bearer (m : Message) (mint : Mint) : Chat.Message :=
  ⟨.assistant, none, some (toolCalls m.blocks mint).1, none, none⟩

theorem filter_bearsCalls_filterMap {f : Block → Option Chat.Message}
    (noCalls : ∀ b p, f b = some p → p.toolCalls = none) (blocks : List Block) :
    (blocks.filterMap f).filter bearsCalls = [] := by
  rw [List.filter_eq_nil_iff]
  intro p hp
  obtain ⟨b, -, hb⟩ := List.mem_filterMap.mp hp
  simp [bearsCalls, noCalls b p hb]

/-- Of the messages that a message becomes, the last one bears its calls, if it has some. -/
theorem bearers_toChat (m : Message) (mint : Mint) :
    (m.toChat mint).1.filter bearsCalls = if m.asks then [m.bearer mint] else [] := by
  match m with
  | ⟨.user, .text s⟩ | ⟨.assistant, .text s⟩ => rfl
  | ⟨.user, .blocks blocks⟩ =>
    have ofTools : (blocks.filterMap Block.toToolMessage?).filter bearsCalls = [] :=
      filter_bearsCalls_filterMap (fun b p h => by cases b <;> cases h; rfl) blocks
    show (userMessages blocks).filter bearsCalls = []
    rw [userMessages, List.filter_append, ofTools, List.nil_append]
    split <;> rfl
  | ⟨.assistant, .blocks blocks⟩ =>
    have texts : (blocks.filterMap Block.toAssistantText?).filter bearsCalls = [] :=
      filter_bearsCalls_filterMap (fun b p h => by cases b <;> cases h; rfl) blocks
    show (assistantMessages blocks mint).1.filter bearsCalls = _
    rw [assistantMessages, List.filter_append, texts, List.nil_append, isEmpty_toolCalls]
    simp only [Message.asks, decide_true, Bool.true_and]
    show _ = if blocks.any Block.isCalled then _ else _
    cases blocks.any Block.isCalled <;> rfl

/-- The messages with calls stand as the messages that ask for them. -/
theorem bearers_messagesToChat (messages : List Message) (mint : Mint) :
    List.Forall₂ (fun m p => ∃ mint, p = m.bearer mint) (messages.filter Message.asks)
      ((messagesToChat messages mint).1.filter bearsCalls) := by
  induction messages generalizing mint with
  | nil => exact .nil
  | cons m rest ih =>
    rw [messagesToChat_cons, List.filter_append, bearers_toChat, List.filter_cons]
    cases m.asks with
    | false => exact ih _
    | true => exact .cons ⟨mint, rfl⟩ (ih _)

section

variable [Tokenizer]

/-- If a message is sound, an answer that consists of its calls has its tool uses for its
content. -/
theorem content_of_bearer {m : Message} (sound : ∀ b ∈ m.blocks, b.IsSound) {mint : Mint}
    {answer : Chat.Response} {index : Nat}
    (only : answer.choices = [⟨index, m.bearer mint, none⟩]) :
    answer.toClaude.content = toolUses m.blocks := by
  have ofChoice : answer.toClaude.content =
      (toolCalls m.blocks mint).1.map Chat.ToolCall.toBlock := by
    rw [Chat.Response.toClaude, only]
    rfl
  rw [ofChoice, toBlock_toolCalls sound]

/-! ## Requests -/

/-- The messages with calls of the request to a provider stand as the messages of the history
that use tools. If the tool uses of such a message are sound, whatever else it holds, then an
answer that consists of the message with its calls is made into just these tool uses. -/
theorem Request.toChat_toolUses {r : Request} (valid : r.check = .ok ()) (mint : Mint) :
    ∃ q mint', r.toChat mint = (.ok q, mint') ∧
      List.Forall₂
        (fun m p => (∀ b ∈ m.blocks, b.IsSound) → ∀ (answer : Chat.Response) (index : Nat),
          answer.choices = [⟨index, p, none⟩] → answer.toClaude.content = toolUses m.blocks)
        (r.messages.filter Message.asks) (q.messages.filter bearsCalls) := by
  obtain ⟨q, mint', accepted⟩ : ∃ q mint', r.toChat mint = (.ok q, mint') := by
    rw [Request.toChat, valid]
    exact ⟨_, _, rfl⟩
  have texts : (r.systemTexts.map (Chat.Message.ofText .system)).filter bearsCalls = [] := by
    rw [List.filter_eq_nil_iff]
    intro p hp
    obtain ⟨s, -, rfl⟩ := List.mem_map.mp hp
    exact Bool.false_ne_true
  refine ⟨q, mint', accepted, ?_⟩
  rw [messages_toChat accepted, List.filter_append, texts, List.nil_append]
  refine (bearers_messagesToChat r.messages mint).imp ?_
  rintro m p ⟨mint, rfl⟩ sound answer index only
  exact content_of_bearer sound only

end

/-- A request in which the assistant uses tools amid a text, a thought and what is not known.
The inputs hold escapes, a character of two code units, numbers at both ends of their range and
values inside values. -/
def mixedUses : Request where
  model := "m"
  messages := [⟨.user, .text "?"⟩,
    ⟨.assistant, .blocks [.plain "One moment.",
      .toolUse "a" "f" (.object [("", .array [.null, .bool false, .string "\"\\\n\x01😀"]),
        ("n", .array [.int (-9223372036854775808), .nat 18446744073709551615, .object []])]),
      .thinking "Hm." none, .other .null,
      .toolUse "b" "f" (.string ""), .toolUse "b" "g" (.object [])]⟩,
    ⟨.user, .blocks [.toolResult "a" .null none]⟩]
  system := some (.text "Be brief.")
  maxTokens := 10
  temperature := none
  topP := none
  topK := none
  stopSequences := none
  tools := none
  toolChoice := none
  stream := none
  metadata := none
  thinking := none

theorem toChat_mixedUses : ∃ q mint' p, mixedUses.toChat ⟨⟨0⟩, 0⟩ = (.ok q, mint') ∧
    q.messages.filter bearsCalls = [p] ∧ ∀ (answer : Chat.Response) (index : Nat),
      answer.choices = [⟨index, p, none⟩] → answer.toClaude.content =
        [.toolUse "a" "f" (.object [("", .array [.null, .bool false, .string "\"\\\n\x01😀"]),
            ("n", .array [.int (-9223372036854775808), .nat 18446744073709551615, .object []])]),
          .toolUse "b" "f" (.string ""), .toolUse "b" "g" (.object [])] := by
  obtain ⟨q, mint', accepted, returned⟩ :=
    Request.toChat_toolUses (r := mixedUses) rfl ⟨⟨0⟩, 0⟩
  have asking : mixedUses.messages.filter Message.asks = [mixedUses.messages[1]] := by decide
  have sound : ∀ b ∈ mixedUses.messages[1].blocks, b.IsSound := by decide
  rw [asking] at returned
  obtain ⟨p, ps, content, rest, bearers⟩ := List.forall₂_cons_left_iff.mp returned
  obtain rfl := List.forall₂_nil_left_iff.mp rest
  exact ⟨q, mint', p, accepted, bearers, content sound⟩

end Claude

end Switchboard
