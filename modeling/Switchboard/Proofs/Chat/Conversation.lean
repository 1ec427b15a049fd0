import Mathlib.Tactic.Common
import Switchboard.Chat.Request

/-!
# Conversations with calls

A provider of chat completions takes a conversation only if calls and answers belong
together. Behind a message with calls come the messages of tools that answer them, one
for each call, and nothing else comes between them (`Conversation`). So a message of a
tool stands behind the message with its call (`Conversation.isCalled`), and a message with
calls stands before its answers (`Conversation.isAnswered`), except that a conversation
may end with calls that wait.
-/

namespace Switchboard.Chat

/-- The calls of a message. -/
def Message.calls (m : Message) : List ToolCall := m.toolCalls.getD []

/-- A message that neither asks for a call nor answers one. -/
structure Message.IsPlain (m : Message) : Prop where
  notTool : m.role ≠ .tool
  noCalls : m.toolCalls = none
  noAnswer : m.toolCallId = none

/-- Messages of tools that answer calls, each call once. -/
structure Answers (calls : List ToolCall) (answers : List Message) : Prop where
  ofTools : ∀ a ∈ answers, a.role = .tool ∧ a.toolCalls = none
  once : ∀ c ∈ calls, answers.countP (fun a => a.toolCallId = some c.id) = 1
  called : ∀ a ∈ answers, ∃ c ∈ calls, a.toolCallId = some c.id

/-- A conversation in which every call is answered at once. If calls may be pending, the last
message may have some. -/
inductive Conversation (pending : Prop) : List Message → Prop
  | nil : Conversation pending []
  | plain {m : Message} {rest : List Message} (plain : m.IsPlain)
      (more : Conversation pending rest) : Conversation pending (m :: rest)
  | answered {asker : Message} {answers rest : List Message} (asks : asker.role = .assistant)
      (answered : Answers asker.calls answers) (more : Conversation pending rest) :
      Conversation pending (asker :: (answers ++ rest))
  | unanswered {asker : Message} (asks : asker.role = .assistant) (waits : pending) :
      Conversation pending [asker]

/-- Before a message there is one of the assistant that has its call, with only messages of
tools between them. -/
def IsCalled (before : List Message) (m : Message) : Prop :=
  ∃ front asker answers, before = front ++ asker :: answers ∧ (∀ a ∈ answers, a.role = .tool) ∧
    asker.role = .assistant ∧ ∃ c ∈ asker.calls, m.toolCallId = some c.id

/-- After a message come the answers to its calls, and then no message of a tool. -/
def IsAnswered (m : Message) (after : List Message) : Prop :=
  ∃ answers rest, after = answers ++ rest ∧ Answers m.calls answers ∧
    ∀ next ∈ rest.head?, next.role ≠ .tool

theorem IsCalled.append {before : List Message} {m : Message} (h : IsCalled before m)
    (earlier : List Message) : IsCalled (earlier ++ before) m := by
  obtain ⟨front, asker, answers, rfl, h⟩ := h
  exact ⟨earlier ++ front, asker, answers, (List.append_assoc _ _ _).symm, h⟩

namespace Conversation

variable {p p' : Prop} {messages : List Message}

theorem mono (h : Conversation p messages) (le : p → p') : Conversation p' messages := by
  induction h with
  | nil => exact .nil
  | plain plain _ ih => exact .plain plain ih
  | answered asks answered _ ih => exact .answered asks answered ih
  | unanswered asks waits => exact .unanswered asks (le waits)

theorem append_plain {front : List Message} (plain : ∀ m ∈ front, m.IsPlain)
    (h : Conversation p messages) : Conversation p (front ++ messages) := by
  induction front with
  | nil => exact h
  | cons m front ih =>
    exact .plain (plain m List.mem_cons_self) (ih fun m hm => plain m (List.mem_cons_of_mem _ hm))

/-- A conversation does not begin with an answer. -/
theorem head_ne_tool (h : Conversation p messages) : ∀ m ∈ messages.head?, m.role ≠ .tool := by
  cases h with
  | nil => exact nofun
  | plain plain _ =>
    rintro m ⟨⟩
    exact plain.notTool
  | answered asks _ _ | unanswered asks _ =>
    rintro m ⟨⟩
    rw [asks]
    decide

/-- A message behind others is one of the first ones, or it comes after them. -/
theorem split_append {answers rest before after : List Message} {m : Message}
    (h : answers ++ rest = before ++ m :: after) :
    (∃ later, answers = before ++ m :: later) ∨
      ∃ between, before = answers ++ between ∧ rest = between ++ m :: after := by
  rcases List.append_eq_append_iff.mp h with ⟨between, hb, hr⟩ | ⟨later, ha, hm⟩
  · exact .inr ⟨between, hb, hr⟩
  · cases later with
    | nil => exact .inr ⟨[], by simpa using ha.symm, by simpa using hm.symm⟩
    | cons x later =>
      obtain ⟨rfl, -⟩ := List.cons.inj hm
      exact .inl ⟨later, ha⟩

/-- Every message of a tool stands behind the message with its call. -/
theorem isCalled (h : Conversation p messages) {before after : List Message} {m : Message}
    (split : messages = before ++ m :: after) (ofTool : m.role = .tool) : IsCalled before m := by
  induction h generalizing before with
  | nil => simp at split
  | @plain x rest plain _ ih =>
    rcases List.cons_eq_append_iff.mp split with ⟨rfl, he⟩ | ⟨before, rfl, he⟩
    · obtain ⟨rfl, -⟩ := List.cons.inj he
      exact absurd ofTool plain.notTool
    · exact (ih he).append [x]
  | @answered asker answers rest asks answered _ ih =>
    rcases List.cons_eq_append_iff.mp split with ⟨rfl, he⟩ | ⟨before, rfl, he⟩
    · obtain ⟨rfl, -⟩ := List.cons.inj he
      exact absurd (asks.symm.trans ofTool) nofun
    rcases split_append he with ⟨later, rfl⟩ | ⟨between, rfl, hr⟩
    · refine ⟨[], asker, before, rfl, fun a ha => ?_, asks, ?_⟩
      · exact (answered.ofTools a (List.mem_append_left _ ha)).1
      · exact answered.called m (List.mem_append_right _ List.mem_cons_self)
    · exact (ih hr).append (asker :: answers)
  | unanswered asks _ =>
    rcases List.cons_eq_append_iff.mp split with ⟨rfl, he⟩ | ⟨before, rfl, he⟩
    · obtain ⟨rfl, -⟩ := List.cons.inj he
      exact absurd (asks.symm.trans ofTool) nofun
    · simp at he

/-- Every message with calls stands before the answers to them, unless it is the last one and
calls are pending. -/
theorem isAnswered (h : Conversation p messages) {before after : List Message} {m : Message}
    (split : messages = before ++ m :: after) (asking : m.toolCalls ≠ none) :
    (after = [] ∧ p) ∨ IsAnswered m after := by
  induction h generalizing before with
  | nil => simp at split
  | plain plain _ ih =>
    rcases List.cons_eq_append_iff.mp split with ⟨rfl, he⟩ | ⟨before, rfl, he⟩
    · obtain ⟨rfl, -⟩ := List.cons.inj he
      exact absurd plain.noCalls asking
    · exact ih he
  | @answered asker answers rest _ answered more ih =>
    rcases List.cons_eq_append_iff.mp split with ⟨rfl, he⟩ | ⟨before, rfl, he⟩
    · obtain ⟨rfl, rfl⟩ := List.cons.inj he
      exact .inr ⟨answers, rest, rfl, answered, more.head_ne_tool⟩
    rcases split_append he with ⟨later, rfl⟩ | ⟨between, -, hr⟩
    · exact absurd (answered.ofTools m (List.mem_append_right _ List.mem_cons_self)).2 asking
    · exact ih hr
  | unanswered _ waits =>
    rcases List.cons_eq_append_iff.mp split with ⟨rfl, he⟩ | ⟨before, rfl, he⟩
    · obtain ⟨rfl, rfl⟩ := List.cons.inj he
      exact .inl ⟨rfl, waits⟩
    · simp at he

end Conversation

end Switchboard.Chat
