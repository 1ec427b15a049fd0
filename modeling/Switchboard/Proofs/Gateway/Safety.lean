import Switchboard.Gateway.Messages
import Switchboard.Proofs.Conversion.History
import Switchboard.Proofs.Text.Lowercase

/-!
# What the safety gate stops

A gate with keywords refuses a request if a text that it looks at holds a keyword, when both
are put in lower case, and a request that is refused reaches no provider
(`refused_of_keyword`). It looks at the text of a message, at blocks of text, and at the result
of a tool that is a text.

The result of a tool may also be a list of blocks. At these the gate does not look, whatever
the keywords are, although the texts in them are sent on (`gate_of_silent`,
`forwarded_unseen`).
-/

namespace Switchboard

/-! ## Texts that are looked at -/

/-- A message says a text where the gate looks. -/
inductive Claude.Message.Says (m : Message) : String → Prop
  | whole {text : String} (h : m.content = .text text) : m.Says text
  | block {text : String} {citations cacheControl : Option Json}
      (h : .text text citations cacheControl ∈ m.blocks) : m.Says text
  | result {id text : String} {isError : Option Bool}
      (h : .toolResult id (.string text) isError ∈ m.blocks) : m.Says text

namespace Gateway

open Text (contains lowercase trim)

/-- The texts that the gate looks at. -/
def seenTexts (r : Claude.Request) : List String :=
  r.messages.flatMap fun m =>
    match m.content with
    | .text s => [s]
    | .blocks blocks => blocks.flatMap checkedTexts

theorem messageText_eq (r : Claude.Request) : messageText r = "\n".intercalate (seenTexts r) := rfl

theorem mem_seenTexts {r : Claude.Request} {m : Claude.Message} (sent : m ∈ r.messages)
    {text : String} (said : m.Says text) : text ∈ seenTexts r := by
  refine List.mem_flatMap.mpr ⟨m, sent, ?_⟩
  obtain ⟨role, content⟩ := m
  cases said with
  | whole h =>
    obtain rfl : content = .text text := h
    exact List.mem_singleton_self text
  | block h | result h =>
    cases content with
    | text s => cases h
    | blocks blocks => exact List.mem_flatMap.mpr ⟨_, h, List.mem_singleton_self text⟩

/-! ## The verdict -/

/-- Why a request with a keyword is refused. -/
def refusal (keyword : String) : Error :=
  .contentRejected "content_blocked" ("content contains blocked keyword \"" ++ keyword ++ "\"")

/-- The gate refuses a request for the first keyword in it, and otherwise lets it pass. -/
theorem gate_keywordChecker (keywords : List String) (r : Claude.Request) :
    gate (keywordChecker keywords) r =
      match (normalKeywords keywords).find? (contains (lowercase (messageText r))) with
      | some keyword => .error (refusal keyword)
      | none => .ok () := by
  unfold gate keywordChecker
  cases (normalKeywords keywords).find? (contains (lowercase (messageText r))) <;> rfl

theorem mem_normalKeywords {keywords : List String} {keyword : String} (listed : keyword ∈ keywords)
    (real : Text.isBlankText keyword = false) :
    lowercase (trim keyword) ∈ normalKeywords keywords := by
  refine List.mem_filter.mpr ⟨List.mem_map_of_mem listed, ?_⟩
  simpa using Text.lowercase_trim_ne_empty real

section

variable {σ : Type} [Tokenizer]

/-- A refused request reaches no provider. -/
theorem message_of_refused {p : Policy} {r : Claude.Request} {e : Error}
    (real : isBackgroundTask r = false) (refused : p.check r = .error e) (h : Handle σ)
    (s : Session σ) : message p h r s = (.error e, s) ∧ openStream p h r s = (.error e, s) := by
  unfold message openStream
  rw [real, refused]
  exact ⟨rfl, rfl⟩

/-- A request that says a keyword is refused, whatever the case of either, and unless it is a
background task no provider is asked for an answer or for a stream. -/
theorem refused_of_keyword {keywords : List String} {keyword : String}
    (listed : keyword ∈ keywords) (notBlank : Text.isBlankText keyword = false)
    {r : Claude.Request} {m : Claude.Message} (sent : m ∈ r.messages) {text : String}
    (said : m.Says text) (found : contains (lowercase text) (lowercase (trim keyword))) :
    ∃ first ∈ normalKeywords keywords,
      gate (keywordChecker keywords) r = .error (refusal first) ∧
      ∀ p : Policy, p.checker = some (keywordChecker keywords) → isBackgroundTask r = false →
        ∀ (h : Handle σ) (s : Session σ), message p h r s = (.error (refusal first), s) ∧
          openStream p h r s = (.error (refusal first), s) := by
  have inText : contains (lowercase (messageText r)) (lowercase (trim keyword)) :=
    Text.contains_lowercase_intercalate (mem_seenTexts sent said) found
  obtain ⟨first, hfirst⟩ : ∃ first,
      (normalKeywords keywords).find? (contains (lowercase (messageText r))) = some first :=
    Option.isSome_iff_exists.mp
      (List.find?_isSome.mpr ⟨_, mem_normalKeywords listed notBlank, inText⟩)
  have refused : gate (keywordChecker keywords) r = .error (refusal first) := by
    rw [gate_keywordChecker, hfirst]
  refine ⟨first, List.mem_of_find?_eq_some hfirst, refused, fun p hp real h s => ?_⟩
  have refusedBy : p.check r = .error (refusal first) := by
    rw [Policy.check, hp]
    exact refused
  exact message_of_refused real refusedBy h s

end

/-- A conversation in which a text says a keyword in another case, behind one that does not. -/
def shoutedResult : Claude.Request where
  model := "m"
  messages := [⟨.user, .text "?"⟩,
    ⟨.user, .blocks [.toolResult "t" (.string "first\nFORBIDDEN things") none]⟩]
  system := none
  maxTokens := 1
  temperature := none
  topP := none
  topK := none
  stopSequences := none
  tools := none
  toolChoice := none
  stream := none
  metadata := none
  thinking := none

theorem refused_shouted : ∃ first ∈ normalKeywords ["absent", "  ", " Forbidden\t"],
    gate (keywordChecker ["absent", "  ", " Forbidden\t"]) shoutedResult = .error (refusal first) ∧
      ∀ (h : Handle Unit) (s : Session Unit),
        let p : Policy := ⟨1, some (keywordChecker ["absent", "  ", " Forbidden\t"])⟩
        message p h shoutedResult s = (.error (refusal first), s) ∧
          openStream p h shoutedResult s = (.error (refusal first), s) := by
  have same : lowercase "FORBIDDEN" = lowercase (trim " Forbidden\t") := by decide
  have found : contains (lowercase "first\nFORBIDDEN things") (lowercase "FORBIDDEN") :=
    Text.contains_lowercase_of_piece (by decide) (by decide)
  rw [same] at found
  have listed : " Forbidden\t" ∈ ["absent", "  ", " Forbidden\t"] := by decide
  have sent : shoutedResult.messages[1] ∈ shoutedResult.messages := by decide
  obtain ⟨first, among, refused, unasked⟩ := refused_of_keyword (σ := Unit) listed (by decide) sent
    (.result List.mem_cons_self) found
  exact ⟨first, among, refused, fun h s => unasked _ rfl (by decide) h s⟩

/-! ## Texts that are not looked at -/

/-- Who says nothing where the gate looks passes it, whatever the keywords are. -/
theorem gate_of_silent {r : Claude.Request} (silent : seenTexts r = []) (keywords : List String) :
    gate (keywordChecker keywords) r = .ok () := by
  have none : (normalKeywords keywords).find? (contains (lowercase (messageText r))) = none := by
    rw [List.find?_eq_none]
    intro keyword among found
    have real : keyword.isEmpty = false := by simpa using (List.mem_filter.mp among).2
    rw [messageText_eq, silent, Text.contains_iff] at found
    have empty : keyword.toList = [] := List.infix_nil.mp found
    simp [String.toList_eq_nil_iff.mp empty] at real
  rw [gate_keywordChecker, none]

/-- A conversation in which the result of a tool is a list with a block of text. -/
def listedResult : Claude.Request where
  model := "m"
  messages := [⟨.user, .blocks [.toolResult "t"
    (.array [.object [("text", .string "forbidden things"), ("type", .string "text")]]) none]⟩]
  system := none
  maxTokens := 1
  temperature := none
  topP := none
  topK := none
  stopSequences := none
  tools := none
  toolChoice := none
  stream := none
  metadata := none
  thinking := none

/-- A provider of chat completions that remembers what it was asked. -/
def listener : Handle (List Chat.Message) where
  provider := { Provider.bare "listener" with
    chat := fun q s => (.ok ⟨"c", "chat.completion", 0, "m", [], none⟩,
      { s with world := s.world ++ q.messages }) }
  capabilities := CapabilitySet.empty.insert .chat

/-- The gate lets the list pass, and the text in it is sent to the provider. -/
theorem forwarded_unseen :
    isBackgroundTask listedResult = false ∧
      gate (keywordChecker ["forbidden"]) listedResult = .ok () ∧
      (message ⟨1, some (keywordChecker ["forbidden"])⟩ listener listedResult ⟨⟨⟨0⟩, 0⟩, []⟩).2.world =
        [⟨.tool, some (.text "[\x7b\"text\":\"forbidden things\",\"type\":\"text\"\x7d]"), none,
          some "t", none⟩] :=
  ⟨by decide, gate_of_silent rfl _, by decide⟩

end Gateway

end Switchboard
