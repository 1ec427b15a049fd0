import Mathlib.Data.List.Chain
import Mathlib.Data.List.Nodup
import Switchboard.Conversion.ClaudeToChat
import Switchboard.Proofs.Chat.Conversation

/-!
# A history stays a conversation

In a history of the Messages protocol the results of tools come in the message of the user
behind the one that uses the tools (`IsHistory`). A request is translated message by
message : the results become messages of tools ahead of what else the user says, and the
tool uses become calls behind what else the assistant says (`exists_toChat`). So calls
meet their answers, and the history becomes a conversation (`toChat_conversation`).
-/

namespace Switchboard.Claude

/-! ## Histories -/

/-- The id of a tool use. -/
def Block.useId? : Block → Option String
  | .toolUse id _ _ => some id
  | _ => none

/-- The id of the tool use that a result is for. -/
def Block.resultId? : Block → Option String
  | .toolResult id _ _ => some id
  | _ => none

/-- A tool use has an id and a name. -/
def Block.isNamed : Block → Bool
  | .toolUse id name _ => !id.isEmpty && !name.isEmpty
  | _ => true

/-- The blocks of a message. A text is none. -/
def Message.blocks (m : Message) : List Block :=
  match m.content with
  | .text _ => []
  | .blocks blocks => blocks

/-- The ids of the tools that a message of the assistant uses. -/
def Message.asked (m : Message) : List String :=
  match m.role with
  | .user => []
  | .assistant => m.blocks.filterMap Block.useId?

/-- The ids that a message has results for. -/
def Message.results (m : Message) : List String := m.blocks.filterMap Block.resultId?

/-- The results of a message are for the tools that the message before it uses, one for
each, and only a user has results. -/
def Message.RepliesTo (m asker : Message) : Prop :=
  m.results.Nodup ∧ m.results ⊆ asker.asked ∧ asker.asked ⊆ m.results ∧
    (m.results ≠ [] → m.role = .user)

instance (m asker : Message) : Decidable (m.RepliesTo asker) :=
  inferInstanceAs (Decidable (_ ∧ _ ∧ _ ∧ _))

/-- A valid history. The tools that its last message uses may wait for their results. -/
structure IsHistory (messages : List Message) : Prop where
  named : ∀ m ∈ messages, ∀ b ∈ m.blocks, b.isNamed = true
  opens : ∀ m ∈ messages.head?, m.results = []
  replies : messages.IsChain fun asker m => m.RepliesTo asker

/-- The last message uses tools. -/
def Awaits (messages : List Message) : Prop := ∃ m ∈ messages.getLast?, m.asked ≠ []

theorem Awaits.cons {messages : List Message} (h : Awaits messages) (m : Message) :
    Awaits (m :: messages) := by
  obtain ⟨last, hl, ha⟩ := h
  refine ⟨last, ?_, ha⟩
  rw [List.getLast?_cons, Option.mem_def.mp hl]
  rfl

/-! ## What becomes of a message -/

theorem ids_toolCalls {blocks : List Block} (named : ∀ b ∈ blocks, b.isNamed = true) (mint : Mint) :
    (toolCalls blocks mint).1.map (·.id) = blocks.filterMap Block.useId? := by
  induction blocks generalizing mint with
  | nil => rfl
  | cons b blocks ih =>
    have ih := ih fun b hb => named b (List.mem_cons_of_mem _ hb)
    cases b with
    | toolUse id name input =>
      have hb := named _ List.mem_cons_self
      simp only [Block.isNamed, Bool.and_eq_true, Bool.not_eq_true'] at hb
      simp only [toolCalls, hb.1, hb.2, Bool.false_eq_true, if_false, List.map_cons, ih,
        List.filterMap_cons, Block.useId?]
    | _ => exact ih mint

/-- A message becomes the answers to the tools of the message before it, then what it says,
and at last, if it uses tools, one message with its calls. -/
structure Becomes (m : Message) (answers said asking : List Chat.Message) : Prop where
  ofTools : ∀ a ∈ answers, a.role = .tool ∧ a.toolCalls = none
  answers : answers.map (·.toolCallId) = m.results.map some
  said : ∀ p ∈ said, p.IsPlain
  asking : (m.asked = [] ∧ asking = []) ∨ ∃ asker, asking = [asker] ∧ asker.role = .assistant ∧
    asker.toolCallId = none ∧ asker.calls.map (·.id) = m.asked ∧ m.asked ≠ []

theorem isPlain_ofText {role : Chat.Role} (h : role ≠ .tool) (s : String) :
    (Chat.Message.ofText role s).IsPlain :=
  ⟨h, rfl, rfl⟩

theorem becomes_text (role : Role) (s : String) (mint : Mint) : ∃ said,
    (Message.toChat ⟨role, .text s⟩ mint).1 = [] ++ (said ++ []) ∧
      Becomes ⟨role, .text s⟩ [] said [] := by
  cases role <;> refine ⟨[_], rfl, nofun, rfl, fun p hp => ?_, .inl ⟨rfl, rfl⟩⟩
  all_goals
    rw [List.mem_singleton.mp hp]
    exact isPlain_ofText (by decide) s

theorem becomes_userMessages (blocks : List Block) : ∃ answers said,
    userMessages blocks = answers ++ (said ++ []) ∧
      Becomes ⟨.user, .blocks blocks⟩ answers said [] := by
  refine ⟨_, _, by rw [List.append_nil]; rfl, ?_, ?_, ?_, .inl ⟨rfl, rfl⟩⟩
  · intro a ha
    obtain ⟨b, -, hb⟩ := List.mem_filterMap.mp ha
    cases b <;> cases hb
    exact ⟨rfl, rfl⟩
  · show _ = (blocks.filterMap Block.resultId?).map some
    rw [List.map_filterMap, List.map_filterMap]
    congr 1
    funext b
    cases b <;> rfl
  · intro p hp
    split at hp
    · cases hp
    · obtain rfl := List.mem_singleton.mp hp
      exact ⟨nofun, rfl, rfl⟩

theorem becomes_assistantMessages {blocks : List Block} (named : ∀ b ∈ blocks, b.isNamed = true)
    (noResults : blocks.filterMap Block.resultId? = []) (mint : Mint) : ∃ said asking,
    (assistantMessages blocks mint).1 = [] ++ (said ++ asking) ∧
      Becomes ⟨.assistant, .blocks blocks⟩ [] said asking := by
  have hids := ids_toolCalls named mint
  refine ⟨_, _, rfl, nofun, ?_, ?_, ?_⟩
  · show _ = (blocks.filterMap Block.resultId?).map some
    rw [noResults]
    rfl
  · intro p hp
    obtain ⟨b, -, hb⟩ := List.mem_filterMap.mp hp
    cases b <;> cases hb
    exact isPlain_ofText (by decide) _
  · split
    case isTrue he =>
      rw [List.isEmpty_iff.mp he] at hids
      exact .inl ⟨hids.symm, rfl⟩
    case isFalse he =>
      refine .inr ⟨_, rfl, rfl, rfl, hids, fun hn => he ?_⟩
      have hn : blocks.filterMap Block.useId? = [] := hn
      rw [hn] at hids
      rw [List.map_eq_nil_iff.mp hids]
      rfl

theorem exists_toChat {m : Message} (named : ∀ b ∈ m.blocks, b.isNamed = true)
    (ofUser : m.results ≠ [] → m.role = .user) (mint : Mint) :
    ∃ answers said asking, (m.toChat mint).1 = answers ++ (said ++ asking) ∧
      Becomes m answers said asking := by
  match m, named, ofUser with
  | ⟨role, .text s⟩, _, _ =>
    obtain ⟨said, he, hb⟩ := becomes_text role s mint
    exact ⟨[], said, [], he, hb⟩
  | ⟨.user, .blocks blocks⟩, _, _ =>
    obtain ⟨answers, said, he, hb⟩ := becomes_userMessages blocks
    exact ⟨answers, said, [], he, hb⟩
  | ⟨.assistant, .blocks blocks⟩, named, ofUser =>
    have hn : blocks.filterMap Block.resultId? = [] := by
      by_contra hn
      exact absurd (ofUser hn) nofun
    obtain ⟨said, asking, he, hb⟩ := becomes_assistantMessages named hn mint
    exact ⟨[], said, asking, he, hb⟩

/-! ## Whole histories -/

theorem messagesToChat_cons (m : Message) (rest : List Message) (mint : Mint) :
    (messagesToChat (m :: rest) mint).1 =
      (m.toChat mint).1 ++ (messagesToChat rest (m.toChat mint).2).1 :=
  rfl

/-- The results that a message has for the one before it answer its calls. -/
theorem answers_of_repliesTo {asker m : Message} (h : m.RepliesTo asker)
    {calls : List Chat.ToolCall} (hc : calls.map (·.id) = asker.asked)
    {answers : List Chat.Message} (ofTools : ∀ a ∈ answers, a.role = .tool ∧ a.toolCalls = none)
    (ids : answers.map (·.toolCallId) = m.results.map some) : Chat.Answers calls answers := by
  obtain ⟨single, only, all, -⟩ := h
  refine ⟨ofTools, fun c hcall => ?_, fun a ha => ?_⟩
  · have hm : c.id ∈ m.results := all (hc ▸ List.mem_map_of_mem hcall)
    have hcount : answers.countP (fun a => a.toolCallId = some c.id) =
        (answers.map (·.toolCallId)).count (some c.id) := by
      rw [List.count, List.countP_map]
      refine congrArg (List.countP · answers) (funext fun a => ?_)
      exact (beq_eq_decide _ _).symm
    rw [hcount, ids]
    exact List.count_eq_one_of_mem (single.map fun _ _ => Option.some.inj) (List.mem_map_of_mem hm)
  · obtain ⟨id, hid, he⟩ : ∃ id ∈ m.results, some id = a.toolCallId :=
      List.mem_map.mp (ids ▸ List.mem_map_of_mem ha)
    obtain ⟨c, hcall, rfl⟩ := List.mem_map.mp (hc ▸ only hid)
    exact ⟨c, hcall, he.symm⟩

/-- The ids that the first of some messages has results for. -/
def firstResults (messages : List Message) : List String :=
  (messages.head?.map Message.results).getD []

theorem firstResults_eq_nil {m : Message} {rest : List Message}
    (h : ∀ next ∈ rest.head?, next.RepliesTo m) (ha : m.asked = []) : firstResults rest = [] := by
  cases rest with
  | nil => rfl
  | cons next rest =>
    obtain ⟨-, only, -⟩ := h next rfl
    rw [ha] at only
    exact List.subset_nil.mp only

/-- Messages become the answers to the tools of a message before them, and then a
conversation. -/
theorem exists_conversation {messages : List Message}
    (named : ∀ m ∈ messages, ∀ b ∈ m.blocks, b.isNamed = true)
    (ofUser : ∀ m ∈ messages, m.results ≠ [] → m.role = .user)
    (replies : messages.IsChain fun asker m => m.RepliesTo asker) (mint : Mint) :
    ∃ answers conversation, (messagesToChat messages mint).1 = answers ++ conversation ∧
      (∀ a ∈ answers, a.role = .tool ∧ a.toolCalls = none) ∧
      answers.map (·.toolCallId) = (firstResults messages).map some ∧
      Chat.Conversation (Awaits messages) conversation := by
  induction messages generalizing mint with
  | nil => exact ⟨[], [], rfl, nofun, rfl, .nil⟩
  | cons m rest ih =>
    obtain ⟨answers, said, asking, hm, hb⟩ :=
      exists_toChat (named m List.mem_cons_self) (ofUser m List.mem_cons_self) mint
    have hrest : ∀ next ∈ rest.head?, next.RepliesTo m := replies.rel_head?
    obtain ⟨answers', conversation, he, ht, hids, hc⟩ :=
      ih (fun m hm => named m (List.mem_cons_of_mem _ hm))
        (fun m hm => ofUser m (List.mem_cons_of_mem _ hm)) replies.tail (m.toChat mint).2
    refine ⟨answers, said ++ (asking ++ (answers' ++ conversation)), ?_, hb.ofTools, hb.answers,
      .append_plain hb.said ?_⟩
    · simp only [messagesToChat_cons, hm, he, List.append_assoc]
    rcases hb.asking with ⟨hasked, rfl⟩ | ⟨asker, rfl, hrole, -, hcalls, hasked⟩
    · -- No tools are used, so that nothing answers them.
      rw [firstResults_eq_nil hrest hasked] at hids
      rw [List.map_eq_nil_iff.mp hids]
      exact hc.mono fun h => h.cons m
    cases rest with
    | nil =>
      obtain ⟨rfl, rfl⟩ := List.append_eq_nil_iff.mp he.symm
      exact .unanswered hrole ⟨m, rfl, hasked⟩
    | cons next rest =>
      have ha : Chat.Answers asker.calls answers' :=
        answers_of_repliesTo (hrest next rfl) hcalls ht hids
      show Chat.Conversation _ (asker :: (answers' ++ conversation))
      exact .answered hrole ha (hc.mono fun h => h.cons m)

/-- The ids of the calls of a message. -/
def callIds (m : Chat.Message) : List String := m.calls.map (·.id)

theorem Becomes.ids {m : Message} {answers said asking : List Chat.Message}
    (h : Becomes m answers said asking) :
    (answers ++ (said ++ asking)).flatMap callIds = m.asked ∧
      (answers ++ (said ++ asking)).filterMap (·.toolCallId) = m.results := by
  have hs : said.flatMap callIds = [] ∧ said.filterMap (·.toolCallId) = [] :=
    ⟨List.flatMap_eq_nil_iff.mpr fun p hp => by
        simp [callIds, Chat.Message.calls, (h.said p hp).noCalls],
      List.filterMap_eq_nil_iff.mpr fun p hp => (h.said p hp).noAnswer⟩
  have ha : answers.flatMap callIds = [] ∧ answers.filterMap (·.toolCallId) = m.results := by
    refine ⟨List.flatMap_eq_nil_iff.mpr fun a ha => ?_, ?_⟩
    · simp [callIds, Chat.Message.calls, (h.ofTools a ha).2]
    · have hm := congrArg (List.filterMap id) h.answers
      rw [List.filterMap_map, List.filterMap_map] at hm
      exact hm.trans List.filterMap_some
  simp only [List.flatMap_append, List.filterMap_append, ha.1, ha.2, hs.1, hs.2, List.nil_append]
  rcases h.asking with ⟨hn, rfl⟩ | ⟨asker, rfl, -, hid, hcalls, -⟩
  · exact ⟨hn.symm, List.append_nil _⟩
  · simp [callIds, hcalls, hid]

/-- The calls and the answers to them are those of the history, in the same order. -/
theorem ids_messagesToChat {messages : List Message}
    (named : ∀ m ∈ messages, ∀ b ∈ m.blocks, b.isNamed = true)
    (ofUser : ∀ m ∈ messages, m.results ≠ [] → m.role = .user) (mint : Mint) :
    (messagesToChat messages mint).1.flatMap callIds = messages.flatMap Message.asked ∧
      (messagesToChat messages mint).1.filterMap (·.toolCallId) =
        messages.flatMap Message.results := by
  induction messages generalizing mint with
  | nil => exact ⟨rfl, rfl⟩
  | cons m rest ih =>
    obtain ⟨answers, said, asking, hm, hb⟩ :=
      exists_toChat (named m List.mem_cons_self) (ofUser m List.mem_cons_self) mint
    obtain ⟨hc, hr⟩ := ih (fun m hm => named m (List.mem_cons_of_mem _ hm))
      (fun m hm => ofUser m (List.mem_cons_of_mem _ hm)) (m.toChat mint).2
    rw [messagesToChat_cons, hm, List.flatMap_append, List.filterMap_append, hb.ids.1, hb.ids.2, hc,
      hr]
    exact ⟨rfl, rfl⟩

/-! ## Requests -/

/-- In a history only users have results. -/
theorem ofUser_of_replies {messages : List Message}
    (first : ∀ m ∈ messages.head?, m.results ≠ [] → m.role = .user)
    (replies : messages.IsChain fun asker m => m.RepliesTo asker) :
    ∀ m ∈ messages, m.results ≠ [] → m.role = .user := by
  induction messages with
  | nil => exact nofun
  | cons m rest ih =>
    exact List.forall_mem_cons.mpr
      ⟨first m rfl, ih (fun next hn => (replies.rel_head? hn).2.2.2) replies.tail⟩

theorem messages_toChat {r : Request} {mint mint' : Mint} {q : Chat.Request}
    (accepted : r.toChat mint = (.ok q, mint')) :
    q.messages = r.systemTexts.map (.ofText .system) ++ (messagesToChat r.messages mint).1 := by
  unfold Request.toChat at accepted
  cases hc : r.check with
  | error e =>
    rw [hc] at accepted
    cases accepted
  | ok _ =>
    rw [hc] at accepted
    obtain ⟨hq, -⟩ := Prod.mk.inj accepted
    obtain rfl := Except.ok.inj hq
    rfl

theorem accepted_of_check {r : Request} (valid : r.check = .ok ()) (mint : Mint) :
    ∃ q mint', r.toChat mint = (.ok q, mint') := by
  rw [Request.toChat, valid]
  exact ⟨_, _, rfl⟩

/-- A valid history becomes a conversation that a provider of chat completions takes, with
the calls and the answers of the history in their order. A message of a tool stands behind
the message of the assistant with its call, with only messages of tools between them. A
message with calls stands before one answer to each of them, and then comes no other
message of a tool, or it is the last one because the history ends with tools that wait for
their results. -/
theorem Request.toChat_conversation {r : Request} {mint mint' : Mint} {q : Chat.Request}
    (valid : IsHistory r.messages) (accepted : r.toChat mint = (.ok q, mint')) :
    (∀ before m after, q.messages = before ++ m :: after → m.role = .tool →
        Chat.IsCalled before m) ∧
      (∀ before m after, q.messages = before ++ m :: after → m.toolCalls ≠ none →
        (after = [] ∧ Awaits r.messages) ∨ Chat.IsAnswered m after) ∧
      q.messages.flatMap callIds = r.messages.flatMap Message.asked ∧
      q.messages.filterMap (·.toolCallId) = r.messages.flatMap Message.results := by
  have ofUser := ofUser_of_replies (fun m hm hn => absurd (valid.opens m hm) hn) valid.replies
  have hplain : ∀ m ∈ r.systemTexts.map (Chat.Message.ofText .system), m.IsPlain := by
    intro m hm
    obtain ⟨s, -, rfl⟩ := List.mem_map.mp hm
    exact isPlain_ofText (by decide) s
  obtain ⟨answers, conversation, he, -, hids, hc⟩ :=
    exists_conversation valid.named ofUser valid.replies mint
  have hn : answers = [] := by
    have hfirst : firstResults r.messages = [] := by
      unfold firstResults
      cases hh : r.messages.head? with
      | none => rfl
      | some m => exact valid.opens m hh
    rw [hfirst] at hids
    exact List.map_eq_nil_iff.mp hids
  rw [messages_toChat accepted]
  have hconv : Chat.Conversation (Awaits r.messages)
      (r.systemTexts.map (.ofText .system) ++ (messagesToChat r.messages mint).1) := by
    rw [he, hn]
    exact .append_plain hplain hc
  obtain ⟨hcalls, hresults⟩ := ids_messagesToChat valid.named ofUser mint
  refine ⟨fun before m after => hconv.isCalled, fun before m after => hconv.isAnswered, ?_, ?_⟩
  · rw [List.flatMap_append, hcalls, List.flatMap_eq_nil_iff.mpr, List.nil_append]
    intro m hm
    simp [callIds, Chat.Message.calls, (hplain m hm).noCalls]
  · rw [List.filterMap_append, hresults, List.filterMap_eq_nil_iff.mpr, List.nil_append]
    exact fun m hm => (hplain m hm).noAnswer

/-- A history in which two tools are used and a third one waits. The results come in another
order than the uses, and amid what else the user says. -/
def twoTools : Request where
  model := "m"
  messages := [⟨.user, .text "?"⟩,
    ⟨.assistant, .blocks [.toolUse "a" "f" (.object []), .plain "One moment.",
      .thinking "Hm." none, .toolUse "b" "g" (.object [])]⟩,
    ⟨.user, .blocks [.plain "Here.", .toolResult "b" .null none, .image (.url "u"),
      .toolResult "a" (.string "1") none]⟩,
    ⟨.assistant, .blocks [.toolUse "c" "f" (.object []), .other .null]⟩]
  system := some (.text "Be brief.")
  maxTokens := 10
  temperature := none
  topP := none
  topK := none
  stopSequences := none
  tools := none
  toolChoice := none
  stream := none
  metadata := none
  thinking := none

theorem isHistory_twoTools : IsHistory twoTools.messages where
  named := by decide
  opens := by decide
  replies := by decide

theorem toChat_twoTools : ∃ q, twoTools.toChat ⟨⟨0⟩, 0⟩ = (.ok q, ⟨⟨0⟩, 0⟩) ∧
    (∀ before m after, q.messages = before ++ m :: after → m.role = .tool →
      Chat.IsCalled before m) ∧
    q.messages.flatMap callIds = ["a", "b", "c"] ∧
    q.messages.filterMap (·.toolCallId) = ["b", "a"] := by
  obtain ⟨q, accepted⟩ : ∃ q, twoTools.toChat ⟨⟨0⟩, 0⟩ = (.ok q, ⟨⟨0⟩, 0⟩) := ⟨_, rfl⟩
  obtain ⟨called, -, calls, answers⟩ := Request.toChat_conversation isHistory_twoTools accepted
  exact ⟨q, accepted, called, calls, answers⟩

end Switchboard.Claude
