import Mathlib.Data.List.Basic
import Switchboard.Backend.Call
import Switchboard.Chat.Chunk
import Switchboard.Proofs.Json.Passage
import Switchboard.Proofs.Text.Lines

/-!
# A buffered stream as one answer

The body of a reply may be a stream of chunks although none was asked for. Line by line it
is taken for the values that it holds (`chunksOfStream_bodyOf`), and these are joined : the
texts one after another, and the last finish reason. What is joined is read as an answer if
the first chunk has an id, a time and a model of its own, and then with all the text
(`decodeBody_bodyOf`). A chunk may lack these, an answer may lack them too, but the joined
one has null in their place and is refused (`decodeBody_nameless`).
-/

namespace Switchboard

open Json

/-! ## Lines -/

/-- A line of an event stream : blank, or with data. -/
inductive StreamLine where
  | blank (text : String) (isBlank : Text.isBlankText text = true)
  | data (payload : String) (oneLine : '\n' ∉ payload.toList)

/-- The line as it stands in the body. -/
def StreamLine.text : StreamLine → String
  | blank text _ => text
  | data payload _ => "data:" ++ payload

/-- The value that a line holds. Data that is not JSON holds none. -/
def StreamLine.value? : StreamLine → Option Json
  | blank _ _ => none
  | data payload _ => Json.parse? (Text.trim payload)

/-- The body with the given lines. -/
def bodyOf (lines : List StreamLine) : String :=
  String.intercalate "\n" (lines.map StreamLine.text)

theorem bodyOf_cons_cons (line next : StreamLine) (lines : List StreamLine) :
    bodyOf (line :: next :: lines) = line.text ++ ("\n" ++ bodyOf (next :: lines)) := by
  simp only [bodyOf, List.map_cons, String.intercalate_cons_cons, String.append_assoc]

theorem chunksOfStream_append (s t : String) :
    chunksOfStream (s ++ ("\n" ++ t)) = chunksOfStream s ++ chunksOfStream t := by
  have hn : "\n" = String.singleton '\n' := rfl
  rw [chunksOfStream, hn, Text.split_append, List.filterMap_append]
  rfl

theorem chunksOfStream_blank {s : String} (h : Text.isBlankText s = true) :
    chunksOfStream s = [] := by
  refine List.filterMap_eq_nil_iff.mpr fun line hl => ?_
  obtain ⟨cs, hcs, rfl⟩ := List.mem_map.mp hl
  have hb : ∀ c ∈ cs, Text.isBlank c = true := fun c hc =>
    List.all_eq_true.mp h c (Text.subset_of_mem_splitChars hcs hc)
  have ht : Text.trim (String.ofList cs) = "" := by
    rw [Text.trim, String.toList_ofList, Text.trimChars_of_blank hb]
  rw [ht]
  rfl

/-- What a line with data carries is what stands behind the mark, trimmed. -/
theorem data_of_line (payload : String) :
    (Text.dropStart? "data:" (Text.trim ("data:" ++ payload))).map Text.trim =
      some (Text.trim payload) := by
  have hm : Text.trim ("data:" ++ payload) =
      "data:" ++ String.ofList (Text.trimEndChars payload.toList) := by
    have hs : "data:".toList = 'd' :: ['a', 't', 'a'] ++ [':'] := by decide
    rw [Text.trim, String.toList_append, hs, Text.trimChars_append (by decide) (by decide), ← hs,
      String.ofList_append, String.ofList_toList]
  rw [hm, Text.dropStart?_append, Option.map_some, Text.trim, String.toList_ofList,
    Text.trimChars_trimEndChars, Text.trim]

theorem chunksOfStream_data {payload : String} (oneLine : '\n' ∉ payload.toList) :
    chunksOfStream ("data:" ++ payload) =
      ((Json.parse? (Text.trim payload)).map Json.sorted).toList := by
  have hl : '\n' ∉ ("data:" ++ payload).toList := by
    rw [String.toList_append]
    exact List.not_mem_append (by decide) oneLine
  have hd := data_of_line payload
  obtain ⟨rest, hr, ht⟩ := Option.map_eq_some_iff.mp hd
  rw [chunksOfStream, Text.split_of_not_mem hl, List.filterMap_cons, List.filterMap_nil]
  simp only [hr, ht, Option.bind_eq_bind, Option.bind_some]
  -- Neither the empty text nor the closing mark is JSON.
  by_cases he : (Text.trim payload).isEmpty || Text.trim payload == "[DONE]"
  · have hn : Json.parse? (Text.trim payload) = none := by
      rcases Bool.or_eq_true_iff.mp he with he | he
      · rw [String.isEmpty_iff.mp he]
        rfl
      · rw [beq_iff_eq.mp he]
        decide +kernel
    rw [if_pos he, hn]
    rfl
  · rw [if_neg he, Json.parseSorted?]
    cases Json.parse? (Text.trim payload) <;> rfl

theorem chunksOfStream_text (line : StreamLine) :
    chunksOfStream line.text = (line.value?.map Json.sorted).toList :=
  match line with
  | .blank _ isBlank => chunksOfStream_blank isBlank
  | .data _ oneLine => chunksOfStream_data oneLine

/-- A body comes to the values that its lines hold. -/
theorem chunksOfStream_bodyOf (lines : List StreamLine) :
    chunksOfStream (bodyOf lines) = (lines.filterMap StreamLine.value?).map Json.sorted := by
  rw [List.map_filterMap, List.filterMap_eq_flatMap_toList]
  induction lines with
  | nil => exact chunksOfStream_blank rfl
  | cons line lines ih =>
    rw [List.flatMap_cons, ← chunksOfStream_text]
    cases lines with
    | nil => simp [bodyOf]
    | cons next lines => rw [bodyOf_cons_cons, chunksOfStream_append, ih]

theorem isEventStream_blank {s : String} (h : Text.isBlankText s = true) (t : String) :
    isEventStream (s ++ ("\n" ++ t)) = isEventStream t := by
  have hb : ∀ c ∈ s.toList ++ ['\n'], Text.isBlank c = true :=
    List.forall_mem_append.mpr
      ⟨fun c hc => List.all_eq_true.mp h c hc, List.forall_mem_singleton.mpr rfl⟩
  have hs : (s ++ ("\n" ++ t)).toList = s.toList ++ ['\n'] ++ t.toList := by
    rw [String.toList_append, String.toList_append, List.append_assoc]
    rfl
  rw [isEventStream, hs, Text.trimStartChars, List.dropWhile_append_of_pos hb]
  rfl

theorem isEventStream_data (s : String) : isEventStream ("data:" ++ s) = true := by
  have hs : ("data:" ++ s).toList = 'd' :: ("ata:".toList ++ s.toList) := by
    rw [String.toList_append]
    rfl
  have ht : Text.trimStartChars ("data:" ++ s).toList = ("data:" ++ s).toList := by
    rw [hs, Text.trimStartChars, List.dropWhile_cons_of_neg (by decide)]
  rw [isEventStream, ht, String.ofList_toList, Text.dropStart?_append]
  rfl

/-- A body with a value in it is taken for a stream. -/
theorem isEventStream_bodyOf {lines : List StreamLine}
    (h : lines.filterMap StreamLine.value? ≠ []) : isEventStream (bodyOf lines) = true := by
  induction lines with
  | nil => exact absurd rfl h
  | cons line lines ih =>
    cases lines with
    | nil =>
      cases line with
      | blank text isBlank => exact absurd rfl h
      | data payload oneLine =>
        have hb : bodyOf [.data payload oneLine] = "data:" ++ payload := by
          simp [bodyOf, StreamLine.text]
        rw [hb, isEventStream_data]
    | cons next lines =>
      rw [bodyOf_cons_cons]
      cases line with
      | blank text isBlank =>
        rw [StreamLine.text, isEventStream_blank isBlank]
        exact ih h
      | data payload oneLine =>
        rw [StreamLine.text, String.append_assoc, isEventStream_data]

/-! ## What chunks say -/

/-- The first choice of a chunk : `choices[0]`. -/
def saidChoice? (chunk : Json) : Option Json := (chunk.get? "choices").bind (Json.item? 0)

/-- The text that a chunk adds : `choices[0].delta.content`. -/
def saidText? (chunk : Json) : Option String := do
  (← (← (← saidChoice? chunk).get? "delta").get? "content").string?

/-- The reason why an answer stopped : `choices[0].finish_reason`, unless it is empty. -/
def saidReason? (chunk : Json) : Option String :=
  (do (← (← saidChoice? chunk).get? "finish_reason").string?).filter fun s => !s.isEmpty

theorem string?_sorted (v : Json) : v.sorted.string? = v.string? := by
  cases v <;> rfl

/-- A member with the key of a field is that field. -/
theorem get?_of_record? {names : List String} {v u : Json} {r : Record} {name : String}
    (h : record? names v = some r) (known : names.contains name = true)
    (found : v.get? name = some u) : r.get? name = some u := by
  cases v with
  | object members => exact (Record.get?_eq_part? h known).trans found
  | _ => cases found

/-- The choices of a chunk are an array of values that can be read. -/
theorem firstChoice?_sorted {v : Json} {c : Chat.Chunk} (h : Chat.Chunk.ofJson? v = some c) :
    firstChoice? v.sorted = (saidChoice? v).map Json.sorted ∧
      ∀ j, saidChoice? v = some j → ∃ choice, Chat.ChunkChoice.ofJson? j = some choice := by
  simp only [Chat.Chunk.ofJson?, Option.bind_eq_bind, Option.bind_eq_some_iff] at h
  obtain ⟨r, hr, -, -, -, -, -, -, -, -, choices, hchoices, -⟩ := h
  have hs := get?_sorted_of_record? hr "choices" (by decide)
  rw [firstChoice?, hs, saidChoice?]
  cases hv : v.get? "choices" with
  | none => exact ⟨rfl, fun _ hj => by cases hj⟩
  | some u =>
    rw [Record.orDefault, get?_of_record? hr (by decide) hv] at hchoices
    cases u with
    | array items =>
      cases items with
      | nil => exact ⟨rfl, fun _ hj => by cases hj⟩
      | cons j rest =>
        obtain ⟨choice, hj, -⟩ := Option.bind_eq_some_iff.mp (List.mapM_cons.symm.trans hchoices)
        refine ⟨rfl, fun j' h' => ⟨choice, ?_⟩⟩
        obtain rfl := Option.some.inj h'
        exact hj
    | _ => cases hchoices

/-- Who looks for a text or a reason in a choice finds the same in the choice in order. -/
theorem choice_sorted {j : Json} {choice : Chat.ChunkChoice}
    (h : Chat.ChunkChoice.ofJson? j = some choice) :
    choiceText j.sorted =
        (((j.get? "delta").bind (Json.get? "content")).bind Json.string?).getD "" ∧
      (j.sorted.get? "finish_reason").bind Json.string? =
        (j.get? "finish_reason").bind Json.string? := by
  simp only [Chat.ChunkChoice.ofJson?, Option.bind_eq_bind, Option.bind_eq_some_iff] at h
  obtain ⟨r, hr, -, -, delta, hdelta, -⟩ := h
  rw [choiceText, get?_sorted_of_record? hr "delta" (by decide),
    get?_sorted_of_record? hr "finish_reason" (by decide)]
  constructor
  · cases hd : j.get? "delta" with
    | none => rfl
    | some d =>
      rw [Record.orDefault, get?_of_record? hr (by decide) hd] at hdelta
      obtain ⟨fields, hf, -⟩ := Option.bind_eq_some_iff.mp hdelta
      rw [Option.map_some, Option.bind_some, Option.bind_some,
        get?_sorted_of_record? hf "content" (by decide)]
      cases d.get? "content" with
      | none => rfl
      | some u => exact congrArg (Option.getD · "") (string?_sorted u)
  · cases j.get? "finish_reason" with
    | none => rfl
    | some u => exact string?_sorted u

/-- What a chunk says can be read off the chunk in order. -/
theorem said_sorted {v : Json} {c : Chat.Chunk} (h : Chat.Chunk.ofJson? v = some c) :
    ((firstChoice? v.sorted).map choiceText).getD "" = (saidText? v).getD "" ∧
      (firstChoice? v.sorted).bind choiceFinish? = saidReason? v := by
  obtain ⟨hf, hj⟩ := firstChoice?_sorted h
  rw [hf, saidText?, saidReason?]
  cases hc : saidChoice? v with
  | none => exact ⟨rfl, rfl⟩
  | some j =>
    obtain ⟨choice, hj⟩ := hj j hc
    obtain ⟨ht, hr⟩ := choice_sorted hj
    rw [Option.map_some, Option.map_some, Option.bind_some, choiceFinish?, ht, hr,
      Option.bind_assoc]
    exact ⟨rfl, rfl⟩

/-! ## The joined answer -/

theorem join_filterMap {α : Type} (f : α → Option String) (as : List α) :
    String.join (as.filterMap f) = String.join (as.map fun a => (f a).getD "") := by
  induction as with
  | nil => rfl
  | cons a as ih =>
    rw [List.filterMap_cons, List.map_cons, String.join_cons, ← ih]
    cases f a with
    | none => exact String.empty_append.symm
    | some s => exact String.join_cons

/-- The texts and the reasons of chunks in order are those that the chunks say. -/
theorem joined_said {values : List Json}
    (chunks : ∀ v ∈ values, (Chat.Chunk.ofJson? v).isSome = true) :
    let choices := (values.map Json.sorted).filterMap firstChoice?
    String.join (choices.map choiceText) = String.join (values.filterMap saidText?) ∧
      choices.filterMap choiceFinish? = values.filterMap saidReason? := by
  have said : ∀ v ∈ values, _ := fun v hv =>
    have ⟨_, hc⟩ := Option.isSome_iff_exists.mp (chunks v hv)
    said_sorted hc
  intro choices
  constructor
  · rw [List.map_filterMap, List.filterMap_map, join_filterMap, join_filterMap]
    exact congrArg String.join (List.map_congr_left fun v hv => (said v hv).1)
  · rw [List.filterMap_filterMap, List.filterMap_map]
    exact List.filterMap_congr fun v hv => (said v hv).2

/-- Whether a chunk has what an answer needs. -/
def isNamed (chunk : Json) : Bool :=
  ["id", "created", "model"].all fun key => (chunk.get? key).isSome

/-- What joined chunks have in a place of the first one : null, if it does not have it. -/
theorem read_member {α : Type} {names : List String} {v : Json} {r : Record} {name : String}
    {default a : α} {read : Json → Option α} (h : record? names v = some r)
    (known : names.contains name = true) (blind : ∀ u : Json, read u.sorted = read u)
    (nothing : read .null = none) (field : r.orDefault name default read = some a) :
    read ((v.sorted.get? name).getD .null) = if (v.get? name).isSome then some a else none := by
  rw [get?_sorted_of_record? h name known]
  cases hv : v.get? name with
  | none => exact nothing
  | some u =>
    rw [Record.orDefault, get?_of_record? h known hv] at field
    exact (blind u).trans field

/-- A text names a reason. -/
theorem reason_of_text (s : String) :
    ∃ reason, Chat.FinishReason.ofJson? (.string s) = some reason ∧ reason.name = s := by
  by_cases h : (Chat.FinishReason.named.map (·.1)).contains s = true
  · simp only [Chat.FinishReason.named, List.map_cons, List.map_nil, List.contains_eq_mem,
      List.mem_cons, List.not_mem_nil, or_false, decide_eq_true_eq] at h
    rcases h with rfl | rfl | rfl | rfl | rfl <;> exact ⟨_, rfl, rfl⟩
  · have hn : name? isNull (Chat.FinishReason.named.map (·.1)) (.string s) = none := if_neg h
    refine ⟨.other s, ?_, rfl⟩
    rw [Chat.FinishReason.ofJson?, hn]
    rfl

/-- The one choice of the joined answer. -/
theorem choices_joined (text : String) {s : String} (said : s ≠ "") :
    listOf? Chat.Choice.ofJson? (.array [.object
      [("finish_reason", .string s), ("index", .nat 0),
        ("message", .object [("content", .string text), ("role", .string "assistant")])]]) =
      some [⟨0, .ofText .assistant text, Chat.FinishReason.ofJson? (.string s)⟩] := by
  obtain ⟨reason, hr, hn⟩ := reason_of_text s
  have hk : (reason != .other "") = true := by
    refine bne_iff_ne.mpr ?_
    rintro rfl
    exact said hn.symm
  have hf : ((Chat.FinishReason.ofJson? (.string s)).map some).bind
      (fun given => some (given.filter fun f => f != .other "")) = some (some reason) := by
    rw [hr]
    exact congrArg some (if_pos hk)
  have hc : Chat.Choice.ofJson? (.object
      [("finish_reason", .string s), ("index", .nat 0),
        ("message", .object [("content", .string text), ("role", .string "assistant")])]) =
      some ⟨0, .ofText .assistant text, some reason⟩ :=
    bind_eq_some_of rfl <| bind_eq_some_of rfl <| bind_eq_some_of rfl <| bind_eq_some_of hf rfl
  rw [hr]
  exact bind_eq_some_of hc rfl

theorem ne_empty_of_choiceFinish? {chunks : List Json} {s : String}
    (h : s ∈ chunks.filterMap choiceFinish?) : s ≠ "" := by
  obtain ⟨chunk, -, hs⟩ := List.mem_filterMap.mp h
  rintro rfl
  cases (Option.filter_eq_some_iff.mp hs).2

/-- What joined chunks are read as : an answer with the id, the time and the model that are in
their places. -/
theorem ofJson?_joinChunks (first : Json) (chunks : List Json) :
    let choices := chunks.filterMap firstChoice?
    let said := (choices.filterMap choiceFinish?).getLast?.getD "stop"
    Chat.Response.ofJson? (joinChunks first chunks) = do
      let id ← string? ((first.get? "id").getD .null)
      let created ← u64? ((first.get? "created").getD .null)
      let model ← string? ((first.get? "model").getD .null)
      return ⟨id, "chat.completion", created, model,
        [⟨0, .ofText .assistant (String.join (choices.map choiceText)),
          Chat.FinishReason.ofJson? (.string said)⟩], some ⟨0, 0, 0⟩⟩ := by
  intro choices said
  have hsaid : said ≠ "" := by
    cases hl : (choices.filterMap choiceFinish?).getLast? with
    | none => simp [said, hl]
    | some s =>
      simp only [said, hl, Option.getD_some]
      exact ne_empty_of_choiceFinish? (List.mem_of_getLast? hl)
  -- The joined object has every field of an answer, so nothing falls back on a default.
  have hread : Chat.Response.ofJson? (joinChunks first chunks) = (do
      let id ← string? ((first.get? "id").getD .null)
      let created ← u64? ((first.get? "created").getD .null)
      let model ← string? ((first.get? "model").getD .null)
      let choices ← listOf? Chat.Choice.ofJson? (.array [.object
        [("finish_reason", .string said), ("index", .nat 0),
          ("message", .object [("content", .string (String.join (choices.map choiceText))),
            ("role", .string "assistant")])]])
      return ⟨id, "chat.completion", created, model, choices, some ⟨0, 0, 0⟩⟩) := rfl
  rw [hread, choices_joined _ hsaid]
  rfl

/-- Of a stream of chunks the first one decides : its id, its time and its model are those of
the answer, and without one of them there is none. -/
theorem response_joined {first : Json} {c : Chat.Chunk} (h : Chat.Chunk.ofJson? first = some c)
    (chunks : List Json) :
    let choices := chunks.filterMap firstChoice?
    let said := (choices.filterMap choiceFinish?).getLast?.getD "stop"
    Chat.Response.ofJson? (joinChunks first.sorted chunks) =
      if isNamed first then
        some ⟨c.id, "chat.completion", c.created, c.model,
          [⟨0, .ofText .assistant (String.join (choices.map choiceText)),
            Chat.FinishReason.ofJson? (.string said)⟩], some ⟨0, 0, 0⟩⟩
      else none := by
  intro choices said
  simp only [Chat.Chunk.ofJson?, Option.bind_eq_bind, Option.bind_eq_some_iff, Option.pure_def,
    Option.some.injEq] at h
  obtain ⟨r, hr, id, hid, object, -, created, hcreated, model, hmodel, pieces, -, usage, -, rfl⟩ :=
    h
  have hid := read_member hr (by decide) string?_sorted rfl hid
  have hcreated := read_member hr (by decide) (fun u => by cases u <;> rfl) rfl hcreated
  have hmodel := read_member hr (by decide) string?_sorted rfl hmodel
  rw [ofJson?_joinChunks, hid, hcreated, hmodel]
  simp only [isNamed, List.all_cons, List.all_nil, Bool.and_true]
  cases (first.get? "id").isSome <;> cases (first.get? "created").isSome <;>
    cases (first.get? "model").isSome <;> rfl

/-! ## Recovery -/

theorem decodeBody_of_chunks (words : Wording) (kind : AnswerKind) {body : String} {first : Json}
    {rest : List Json} (stream : isEventStream body = true)
    (chunks : chunksOfStream body = first :: rest) :
    decodeBody words kind body = (kind.read (joinChunks first (first :: rest))).elim
      (.error (.undecodable (words.ofValue kind (joinChunks first (first :: rest))))) .ok := by
  simp only [decodeBody, if_pos stream, chunks]
  cases kind.read (joinChunks first (first :: rest)) <;> rfl

/-- A body of chunks is decoded as one answer if the first chunk has an id, a time and a model
of its own. The answer has these and one choice, with all the text that the chunks say and
with the last reason that one of them gives, or else that it stopped. If the first chunk lacks
one of the three, the body is refused. -/
theorem decodeBody_bodyOf (words : Wording) {lines : List StreamLine} {first : Json}
    {rest : List Json} (held : lines.filterMap StreamLine.value? = first :: rest)
    (chunks : ∀ v ∈ first :: rest, (Chat.Chunk.ofJson? v).isSome = true) :
    let text := String.join ((first :: rest).filterMap saidText?)
    let said := ((first :: rest).filterMap saidReason?).getLast?.getD "stop"
    (isNamed first = true → ∃ c reason, Chat.Chunk.ofJson? first = some c ∧
      Chat.FinishReason.ofJson? (.string said) = some reason ∧
      decodeBody words .chat (bodyOf lines) = .ok {
        id := c.id
        object := "chat.completion"
        created := c.created
        model := c.model
        choices := [⟨0, .ofText .assistant text, some reason⟩]
        usage := some ⟨0, 0, 0⟩ }) ∧
      (isNamed first = false → ∃ detail,
        decodeBody words .chat (bodyOf lines) = .error (.undecodable detail)) := by
  intro text said
  obtain ⟨c, hc⟩ := Option.isSome_iff_exists.mp (chunks first List.mem_cons_self)
  obtain ⟨reason, hreason, -⟩ := reason_of_text said
  obtain ⟨ht, hr⟩ := joined_said chunks
  have hb : chunksOfStream (bodyOf lines) = first.sorted :: rest.map Json.sorted := by
    rw [chunksOfStream_bodyOf, held, List.map_cons]
  have hs : isEventStream (bodyOf lines) = true :=
    isEventStream_bodyOf (held ▸ List.cons_ne_nil first rest)
  have hj := response_joined hc ((first :: rest).map Json.sorted)
  simp only [ht, hr] at hj
  rw [decodeBody_of_chunks words .chat hs hb, ← List.map_cons, AnswerKind.read, hj]
  constructor
  · intro hn
    rw [if_pos hn, hreason]
    exact ⟨c, reason, hc, rfl, rfl⟩
  · intro hn
    rw [hn]
    exact ⟨_, rfl⟩

/-- The first chunk has the names, the second one a text and a reason. -/
theorem decodeBody_twoChunks :
    let named : Json := .object [("id", .string "c"), ("created", .nat 1), ("model", .string "m")]
    let last : Json := .object [("choices", .array [.object [("index", .nat 0),
      ("delta", .object [("content", .string "hi")]), ("finish_reason", .string "length")]])]
    decodeBody .plain .chat
        ("data: " ++ named.render ++ "\n\ndata: " ++ last.render ++ "\n\ndata: [DONE]\n") =
      .ok ⟨"c", "chat.completion", 1, "m", [⟨0, .ofText .assistant "hi", some .length⟩],
        some ⟨0, 0, 0⟩⟩ := by
  intro named last
  let lines : List StreamLine :=
    [.data (" " ++ named.render) (by decide +kernel), .blank "" rfl,
      .data (" " ++ last.render) (by decide +kernel), .blank "" rfl,
      .data " [DONE]" (by decide +kernel), .blank "" rfl]
  have body : bodyOf lines = "data: " ++ named.render ++ "\n\ndata: " ++ last.render ++
      "\n\ndata: [DONE]\n" := by decide +kernel
  have held : lines.filterMap StreamLine.value? = [named, last] := by decide +kernel
  have chunks : ∀ v ∈ [named, last], (Chat.Chunk.ofJson? v).isSome = true := by decide +kernel
  obtain ⟨c, reason, hc, hr, h⟩ := (decodeBody_bodyOf .plain held chunks).1 (by decide +kernel)
  have hc' : c = ⟨"c", "", 1, "m", [], none⟩ := Option.some.inj (hc.symm.trans rfl)
  have hr' : reason = .length := Option.some.inj (hr.symm.trans rfl)
  rw [← body, h, hc', hr']
  rfl

/-- A library that complains of the null in place of a time. -/
def nullWording : Wording :=
  { Wording.plain with ofValue := fun _ _ => "invalid type: null, expected u64" }

/-- A chunk may lack an id, a time and a model. A body with it is refused. -/
theorem decodeBody_nameless :
    let chunk : Json := .object [("choices", .array [.object [("index", .nat 0),
      ("delta", .object [("content", .string "hi")])]])]
    (Chat.Chunk.ofJson? chunk).isSome = true ∧
      decodeBody nullWording .chat ("data: " ++ chunk.render ++ "\n\n") =
        .error (.undecodable "invalid type: null, expected u64") := by
  decide +kernel

end Switchboard
