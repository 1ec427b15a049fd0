import Mathlib.Data.List.Chain
import Mathlib.Data.List.Flatten
import Switchboard.Conversion.ChatToGemini
import Switchboard.Proofs.Conversion.Payload
import Switchboard.Proofs.Text.Lowercase

/-!
# Turns of a conversation with Gemini

Gemini wants the user and the model to speak in turn, and the messages of a chat need not do so.
Each message but an instruction has a side, and parts that may depend on the calls before it
(`Message.yields`). Turns without parts are left out and neighbours on one side are joined, so
the turns alternate (`isChain_joinTurns`). Neither of the two changes what is read off the turns
part by part, and hence it can be read off the messages instead (`flatMap_contents`). With two
such readings, of all parts and of the user's parts, nothing is lost and nothing is out of order.

A request for a message comes to Gemini through a request for a chat, and its images in line
become addresses on the way. An address is taken apart at the first mark for base64 in it, which
is the right one if the media type has no such mark (`inlineData?_base64`).
`Request.toGemini_contents` puts this together.
-/

namespace Switchboard

/-! ## Items that know the items before them -/

/-- What the items of a list give one after another, each one knowing the items before it. -/
def flatMapBehind {α β : Type} (f : List α → α → List β) (earlier : List α) : List α → List β
  | [] => []
  | a :: rest => f earlier a ++ flatMapBehind f (earlier ++ [a]) rest

section

variable {α β γ : Type} {f : List α → α → List β}

theorem flatMapBehind_append (earlier xs ys : List α) :
    flatMapBehind f earlier (xs ++ ys) =
      flatMapBehind f earlier xs ++ flatMapBehind f (earlier ++ xs) ys := by
  induction xs generalizing earlier with
  | nil => simp [flatMapBehind]
  | cons x xs ih => simp [flatMapBehind, ih]

theorem flatMap_flatMapBehind (g : β → List γ) (earlier xs : List α) :
    (flatMapBehind f earlier xs).flatMap g =
      flatMapBehind (fun earlier a => (f earlier a).flatMap g) earlier xs := by
  induction xs generalizing earlier with
  | nil => rfl
  | cons x xs ih => rw [flatMapBehind, List.flatMap_append, ih, flatMapBehind]

theorem sublist_flatMapBehind {g : α → List β} {xs : List α} (earlier : List α)
    (h : ∀ earlier, ∀ x ∈ xs, (g x).Sublist (f earlier x)) :
    (xs.flatMap g).Sublist (flatMapBehind f earlier xs) := by
  induction xs generalizing earlier with
  | nil => exact .slnil
  | cons x xs ih =>
    rw [List.flatMap_cons, flatMapBehind]
    exact (h earlier x List.mem_cons_self).append
      (ih _ fun earlier y hy => h earlier y (List.mem_cons_of_mem x hy))

end

namespace Chat

open Gemini (Part.ofText Part.ofInlineData Part.ofFunctionResponse)

/-! ## Joined turns -/

/-- A side of the conversation, and what it says in a turn. -/
abbrev Turn := String × List Gemini.Part

/-- Joining turns changes nothing of what is read off turns part by part. -/
theorem flatMap_joinTurns {β : Type} {read : Turn → List β}
    (add : ∀ side ps qs, read (side, ps ++ qs) = read (side, ps) ++ read (side, qs))
    (ts : List Turn) : (joinTurns ts).flatMap read = ts.flatMap read := by
  induction ts with
  | nil => rfl
  | cons t rest ih =>
    obtain ⟨side, ps⟩ := t
    rw [joinTurns, List.flatMap_cons, ← ih]
    cases joinTurns rest with
    | nil => rfl
    | cons first later =>
      obtain ⟨next, qs⟩ := first
      by_cases same : side = next
      · subst same
        simp only [if_true, List.flatMap_cons, add, List.append_assoc]
      · simp only [if_neg same, List.flatMap_cons]

theorem isChain_joinTurns (ts : List Turn) : (joinTurns ts).IsChain fun t u => t.1 ≠ u.1 := by
  induction ts with
  | nil => exact .nil
  | cons t rest ih =>
    obtain ⟨side, ps⟩ := t
    rw [joinTurns]
    cases hj : joinTurns rest with
    | nil => exact .singleton _
    | cons first later =>
      obtain ⟨next, qs⟩ := first
      rw [hj] at ih
      by_cases same : side = next
      · subst same
        simp only [if_true]
        cases later with
        | nil => exact .singleton _
        | cons second later => exact .cons_cons ih.rel ih.tail
      · simp only [if_neg same]
        exact .cons_cons same ih

theorem forall_mem_joinTurns {P : String → Prop} {ts : List Turn}
    (h : ∀ t ∈ ts, P t.1 ∧ t.2 ≠ []) : ∀ t ∈ joinTurns ts, P t.1 ∧ t.2 ≠ [] := by
  induction ts with
  | nil => exact nofun
  | cons t rest ih =>
    obtain ⟨side, ps⟩ := t
    obtain ⟨first, more⟩ := List.forall_mem_cons.mp h
    have ih := ih more
    rw [joinTurns]
    cases hj : joinTurns rest with
    | nil => exact List.forall_mem_singleton.mpr first
    | cons head later =>
      obtain ⟨next, qs⟩ := head
      rw [hj] at ih
      by_cases same : side = next
      · simp only [if_pos same]
        refine List.forall_mem_cons.mpr ⟨⟨first.1, ?_⟩, (List.forall_mem_cons.mp ih).2⟩
        exact List.append_ne_nil_of_left_ne_nil first.2 qs
      · simp only [if_neg same]
        exact List.forall_mem_cons.mpr ⟨first, ih⟩

/-! ## The turns of messages -/

/-- The calls of the assistant among some messages, the latest one first. -/
def callsAmong (earlier : List Message) : CallNames :=
  ((earlier.filter (·.role = .assistant)).flatMap fun m =>
    m.calls.map fun c => (c.id, c.name)).reverse

/-- The side that a message is on. An instruction is on none. -/
def Message.side? (m : Message) : Option String :=
  match m.role with
  | .system => none
  | .assistant => some "model"
  | .user | .tool => some "user"

/-- The parts that a message yields behind other ones. -/
def Message.yields (earlier : List Message) (m : Message) : List Gemini.Part :=
  match m.role with
  | .system => []
  | .user => m.userParts
  | .assistant => m.modelParts
  | .tool => [.ofFunctionResponse (m.functionResponse (callsAmong earlier))]

theorem callsAmong_append (earlier out : List Message) :
    callsAmong (earlier ++ out) = callsAmong out ++ callsAmong earlier := by
  simp [callsAmong]

theorem callsAmong_concat (earlier : List Message) (m : Message) :
    callsAmong (earlier ++ [m]) =
      if m.role = .assistant then m.callNames ++ callsAmong earlier else callsAmong earlier := by
  rw [callsAmong_append]
  by_cases assistant : m.role = .assistant
  · simp [callsAmong, assistant, Message.callNames, Message.calls]
  · simp [callsAmong, assistant]

theorem turn?_eq (m : Message) (earlier : List Message) :
    m.turn? (callsAmong earlier) = m.side?.map fun side => (side, m.yields earlier) := by
  unfold Message.turn? Message.side? Message.yields
  cases m.role <;> rfl

theorem mem_turns (messages : List Message) (names : CallNames) :
    ∀ t ∈ turns messages names, (t.1 = "user" ∨ t.1 = "model") ∧ t.2 ≠ [] := by
  induction messages generalizing names with
  | nil => exact nofun
  | cons m rest ih =>
    rw [turns]
    cases ht : m.turn? names with
    | none => exact ih _
    | some t =>
      obtain ⟨side, parts⟩ := t
      have sided : side = "user" ∨ side = "model" := by
        unfold Message.turn? at ht
        split at ht <;> cases ht <;> simp
      by_cases blank : parts.isEmpty
      · simp only [if_pos blank]
        exact ih _
      · simp only [if_neg blank]
        exact List.forall_mem_cons.mpr
          ⟨⟨sided, fun he => blank (List.isEmpty_iff.mpr he)⟩, ih _⟩

/-- What is read off the turns of messages, part by part, is read off the messages. -/
theorem flatMap_turns {β : Type} {read : Turn → List β} (blank : ∀ side, read (side, []) = [])
    (earlier messages : List Message) : (turns messages (callsAmong earlier)).flatMap read =
      flatMapBehind (fun earlier m =>
        (m.side?.map fun side => read (side, m.yields earlier)).getD []) earlier messages := by
  induction messages generalizing earlier with
  | nil => rfl
  | cons m rest ih =>
    have later := ih (earlier ++ [m])
    rw [callsAmong_concat] at later
    rw [turns, turn?_eq, flatMapBehind, ← later]
    cases m.side? with
    | none => rfl
    | some side =>
      by_cases empty : (m.yields earlier).isEmpty
      · simp only [Option.map_some, Option.getD_some, if_pos empty]
        rw [List.isEmpty_iff.mp empty, blank, List.nil_append]
      · simp only [Option.map_some, Option.getD_some, if_neg empty, List.flatMap_cons]

/-! ## Contents -/

/-- A filled turn for each content, of the user and of the model in turn. -/
structure Alternates (contents : List Gemini.Content) : Prop where
  sides : ∀ c ∈ contents, c.role = some "user" ∨ c.role = some "model"
  filled : ∀ c ∈ contents, c.parts ≠ []
  inTurn : contents.IsChain fun c next => c.role ≠ next.role

theorem alternates_contents (q : Request) : Alternates q.toGemini.contents := by
  have filled := forall_mem_joinTurns (P := fun side => side = "user" ∨ side = "model")
    (mem_turns q.messages [])
  refine ⟨fun c hc => ?_, fun c hc => ?_, ?_⟩
  · obtain ⟨t, ht, rfl⟩ := List.mem_map.mp hc
    exact (filled t ht).1.imp (congrArg some) (congrArg some)
  · obtain ⟨t, ht, rfl⟩ := List.mem_map.mp hc
    exact (filled t ht).2
  · refine List.isChain_map_of_isChain _ (fun t u differ same => differ ?_) (isChain_joinTurns _)
    exact Option.some.inj same

/-- What is read off the contents, part by part, is read off the messages. -/
theorem flatMap_contents {β : Type} (read : Turn → List β) (blank : ∀ side, read (side, []) = [])
    (add : ∀ side ps qs, read (side, ps ++ qs) = read (side, ps) ++ read (side, qs)) (q : Request) :
    (joinTurns (turns q.messages [])).flatMap read =
      flatMapBehind (fun earlier m =>
        (m.side?.map fun side => read (side, m.yields earlier)).getD []) [] q.messages :=
  (flatMap_joinTurns add _).trans (flatMap_turns blank [] q.messages)

/-- The parts of the contents are those that the messages yield, in their order. -/
theorem parts_contents (q : Request) : q.toGemini.contents.flatMap (·.parts) =
    flatMapBehind (fun earlier m => m.yields earlier) [] q.messages := by
  have read := flatMap_contents Prod.snd (fun _ => rfl) (fun _ _ _ => rfl) q
  have each : (fun earlier (m : Message) =>
      (m.side?.map fun side => Prod.snd (side, m.yields earlier)).getD []) =
      fun earlier m => m.yields earlier := by
    funext earlier m
    unfold Message.side? Message.yields
    cases m.role <;> rfl
  rw [each] at read
  rw [← read, Request.toGemini, List.flatMap_map]

theorem flatMap_filter {α β : Type} (P : α → Bool) (f : α → List β) (as : List α) :
    (as.filter P).flatMap f = as.flatMap fun a => if P a then f a else [] := by
  induction as with
  | nil => rfl
  | cons a as ih => by_cases h : P a <;> simp [h, ih]

/-- The parts of the user's contents are those that the messages of users and tools yield. -/
theorem userParts_contents (q : Request) :
    (q.toGemini.contents.filter (·.role = some "user")).flatMap (·.parts) =
      flatMapBehind (fun earlier m =>
        if m.side? = some "user" then m.yields earlier else []) [] q.messages := by
  have read := flatMap_contents (fun t => if t.1 = "user" then t.2 else [])
    (fun _ => ite_self []) (fun side _ _ => by by_cases h : side = "user" <;> simp [h]) q
  have each : (fun earlier (m : Message) =>
      (m.side?.map fun side => if side = "user" then m.yields earlier else []).getD []) =
      fun earlier m => if m.side? = some "user" then m.yields earlier else [] := by
    funext earlier m
    cases m.side? <;> simp
  rw [each] at read
  rw [← read, flatMap_filter, Request.toGemini, List.flatMap_map]
  simp

/-- The texts of the instructions that are not empty. -/
def instructions (messages : List Message) : List String :=
  ((messages.filter (·.role = .system)).map Message.textContent).filter (· ≠ "")

/-- The system instruction consists of the instructions, if there are some. -/
theorem systemInstruction_toGemini (q : Request) : q.toGemini.systemInstruction =
    if instructions q.messages = [] then none
    else some ⟨none, (instructions q.messages).map .ofText⟩ := by
  have texts : systemTexts q.messages = instructions q.messages := by
    rw [systemTexts, instructions, List.filter_map, List.filter_filter]
    congr 1
    refine List.filter_congr fun m _ => ?_
    by_cases system : m.role = .system <;> by_cases blank : m.textContent = "" <;>
      simp [system, blank]
  rw [Request.toGemini, texts]
  cases instructions q.messages <;> rfl

/-! ## Images in line -/

/-- A mark that begins with a letter it does not repeat is found where it stands, if it does not
stand in the text before. -/
theorem splitAt?_append {c : Char} {mark : List Char} (once : c ∉ mark) {cs : List Char}
    (plain : ¬ (c :: mark) <:+: cs) (ds : List Char) :
    splitAt? (c :: mark) (cs ++ (c :: mark ++ ds)) = some (cs, ds) := by
  induction cs with
  | nil =>
    have here : (c :: mark).isPrefixOf (c :: (mark ++ ds)) = true :=
      List.isPrefixOf_iff_prefix.mpr (List.prefix_append (c :: mark) ds)
    simp only [List.nil_append, List.cons_append, splitAt?, if_pos here]
    simp
  | cons b cs ih =>
    have later : (c :: mark).isPrefixOf (b :: (cs ++ (c :: mark ++ ds))) = false := by
      refine Bool.eq_false_iff.mpr fun found => ?_
      obtain ⟨tail, he⟩ := List.isPrefixOf_iff_prefix.mp found
      have he : c :: mark ++ tail = b :: cs ++ (c :: mark ++ ds) := he
      rcases List.append_eq_append_iff.mp he with ⟨more, inside, -⟩ | ⟨begun, across, behind⟩
      · exact plain ⟨[], more, inside.symm⟩
      -- The mark begins in the text before : then its letter comes again within it.
      cases begun with
      | nil => exact plain ⟨[], [], by simpa using across⟩
      | cons d begun =>
        obtain ⟨rfl, -⟩ := List.cons.inj behind
        obtain ⟨-, rest⟩ := List.cons.inj across
        exact once (rest ▸ List.mem_append_right cs List.mem_cons_self)
    have ih := ih fun h => plain (List.infix_cons h)
    rw [List.cons_append, splitAt?, later, ih]
    rfl

/-- The data of an image in line are read back from its address. -/
theorem inlineData?_base64 {mediaType : String}
    (plain : Text.contains mediaType ";base64," = false) (data : String) :
    inlineData? ("data:" ++ mediaType ++ ";base64," ++ data) = some ⟨mediaType, data⟩ := by
  have text : ("data:" ++ mediaType ++ ";base64," ++ data).toList =
      "data:".toList ++ (mediaType.toList ++ (";base64,".toList ++ data.toList)) := by
    simp only [String.toList_append, List.append_assoc]
  have marked : "data:".toList.isPrefixOf ("data:" ++ mediaType ++ ";base64," ++ data).toList =
      true := by
    rw [text]
    exact List.isPrefixOf_iff_prefix.mpr (List.prefix_append _ _)
  have rest : ("data:" ++ mediaType ++ ";base64," ++ data).toList.drop 5 =
      mediaType.toList ++ (";base64,".toList ++ data.toList) := by
    rw [text]
    rfl
  have found : splitAt? ";base64,".toList (mediaType.toList ++ (";base64,".toList ++ data.toList)) =
      some (mediaType.toList, data.toList) :=
    splitAt?_append (by decide)
      (fun h => Bool.eq_false_iff.mp plain (Text.contains_iff.mpr h)) data.toList
  simp only [inlineData?, marked, if_true, rest, found, Option.map_some, String.ofList_toList]

end Chat

/-! ## What users show -/

namespace Claude

/-- What a block shows Gemini : a text, or an image that is carried in line. -/
def Block.inline? : Block → Option Gemini.Part
  | .text s _ _ => some (.ofText s)
  | .image (.base64 mediaType data) =>
    if Text.contains mediaType ";base64," then none else some (.ofInlineData ⟨mediaType, data⟩)
  | _ => none

/-- The texts and the images in line of a user. -/
def Message.inline (m : Message) : List Gemini.Part :=
  match m.role, m.content with
  | .user, .text s => [.ofText s]
  | .user, .blocks blocks => blocks.filterMap Block.inline?
  | .assistant, _ => []

theorem toGemini?_of_inline? {b : Block} {part : Gemini.Part} (h : b.inline? = some part) :
    b.shown?.bind Chat.Part.toGemini? = some part := by
  cases b with
  | text s citations cacheControl => exact h
  | image source =>
    cases source with
    | base64 mediaType data =>
      rw [Block.inline?] at h
      split at h
      · cases h
      case isFalse plain =>
        obtain rfl := Option.some.inj h
        rw [Block.shown?, Option.bind_some, Chat.Part.toGemini?,
          Chat.inlineData?_base64 (Bool.eq_false_iff.mpr plain)]
        rfl
    | url location => cases h
  | _ => cases h

/-- A user's message to a chat provider holds what its blocks show, in their order. -/
theorem inline_sublist (m : Message) :
    m.inline.Sublist (m.shown?.toList.flatMap Chat.Message.userParts) := by
  match m with
  | ⟨.assistant, content⟩ => exact List.nil_sublist _
  | ⟨.user, .text s⟩ => exact List.Sublist.refl [Gemini.Part.ofText s]
  | ⟨.user, .blocks blocks⟩ =>
    have parts : (ofParts (blocks.filterMap Block.shown?)).toList.flatMap Chat.Message.userParts =
        blocks.filterMap fun b => b.shown?.bind Chat.Part.toGemini? := by
      rw [← List.filterMap_filterMap]
      cases blocks.filterMap Block.shown? with
      | nil => rfl
      | cons part parts => exact List.append_nil _
    show List.Sublist (blocks.filterMap Block.inline?)
      ((ofParts (blocks.filterMap Block.shown?)).toList.flatMap Chat.Message.userParts)
    rw [parts, List.filterMap_eq_flatMap_toList, List.filterMap_eq_flatMap_toList]
    refine List.Sublist.flatMap_right blocks fun b _ => ?_
    cases hb : b.inline? with
    | none => exact List.nil_sublist _
    | some part => rw [toGemini?_of_inline? hb]

/-- The user's messages to a chat provider are what the users show. -/
theorem users_toChat {r : Request} {mint mint' : Mint} {q : Chat.Request}
    (accepted : r.toChat mint = (.ok q, mint')) :
    q.messages.filter (·.role = .user) = r.messages.filterMap Message.shown? := by
  obtain ⟨groups, flat, renders⟩ := exists_groups r.messages mint
  have system : (r.systemTexts.map (Chat.Message.ofText .system)).filter (·.role = .user) = [] := by
    refine List.filter_eq_nil_iff.mpr fun p hp => ?_
    obtain ⟨s, -, rfl⟩ := List.mem_map.mp hp
    simp [Chat.Message.ofText]
  rw [messages_toChat accepted, flat, List.filter_append, system, List.nil_append,
    (carries_flatten renders).shown]

end Claude

/-- A text, an image in line behind the result of a tool, and a text of the next message. -/
def Claude.picture : Claude.Request where
  model := "m"
  messages := [⟨.user, .text "Look."⟩,
    ⟨.assistant, .blocks [.toolUse "a" "camera" (.object [])]⟩,
    ⟨.user, .blocks [.image (.base64 "image/png" "AA=="), .toolResult "a" .null none]⟩,
    ⟨.user, .blocks [.text "What is it?" none none]⟩]
  system := some (.text "Be brief.")
  maxTokens := 10
  temperature := none
  topP := none
  topK := none
  stopSequences := none
  tools := none
  toolChoice := none
  stream := none
  metadata := none
  thinking := none

end Switchboard
