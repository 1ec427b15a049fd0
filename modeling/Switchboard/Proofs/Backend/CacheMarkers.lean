import Mathlib.Data.List.Forall2
import Switchboard.Backend.Hosted
import Switchboard.Backend.Messages
import Switchboard.Proofs.Json.Passage

/-!
# Cache markers in native bodies

A client marks the blocks of a request that a backend shall keep in its cache. Native backends
are sent the request as it was read, with the fields that are modelled, so a marker gets there
only if what it stands at is kept with it : blocks of the system prompt, tools and texts have a
field for it, and a block of a kind that is not modelled is kept whole. A tool use, the result of
a tool, an image or a thought have none (`Block.keepsMarker`).

`MarkerPlace.marker?` is the marker at a place of a request. It is looked for in the same way in
what a client writes, where a record may be an object or a list of its fields, and in what is sent.
For each kind of thing, what is read is written with the same marker
(`SystemBlock.cacheControl?_toJson`, `Tool.cacheControl?_toJson`, `Block.cacheControl?_toJson`),
and so is the whole at all its places (`Request.marker?_written`). Hosting adds members of its own
and puts all of them in order, which leaves the places as they are (`NativeBody.find?_eq`).
`cacheMarkers_nativeBody` puts this together.
-/

namespace Switchboard

namespace Json

/-! ## Fields and items -/

section Part

variable {name : String} {v : Json} {r : Record}

theorem item?_ofList {α : Type} (write : α → Json) (as : List α) (i : Nat) :
    (ofList write as).item? i = as[i]?.map write := List.getElem?_map

/-- What holds of each item and of what is read of it holds at each place of a list. -/
theorem bind_getElem?_of_listOf? {α β : Type} {read : Json → Option α} {f : α → Option β}
    {g : Json → Option β} {as : List α} (h : listOf? read v = some as)
    (each : ∀ {u a}, read u = some a → f a = g u) (i : Nat) :
    as[i]?.bind f = (v.item? i).bind g := by
  cases v with
  | array us =>
    have items := mapM_eq_some_iff.mp h
    clear h
    show _ = us[i]?.bind g
    induction items generalizing i with
    | nil => rfl
    | cons first _ ih =>
      cases i with
      | zero => exact each first
      | succ i => exact ih i
  | _ => cases h

/-- What holds of a field that is there and of what is read of it holds of one that may be left
out, if null has nothing of it. -/
theorem Record.bind_optional {α β : Type} {read : Json → Option α} {o : Option α}
    {f : α → Option β} {g : Json → Option β} (h : r.optional name read = some o)
    (null : g .null = none) (each : ∀ u a, read u = some a → f a = g u) :
    o.bind f = (r.get? name).bind g := by
  rcases Record.optional_eq_some h with ⟨rfl, isNull⟩ | ⟨u, a, rfl, found, -, ha⟩
  · cases found : r.get? name with
    | none => rfl
    | some u =>
      obtain rfl := isNull u found
      exact null.symm
  · rw [found]
    exact each u a ha

end Part

/-! ## Markers -/

/-- A value in order, if it is there and not null. -/
def notNull? (v : Option Json) : Option Json := (v.map sorted).filter fun u => !u.isNull

theorem notNull?_map_sorted (v : Option Json) : notNull? (v.map sorted) = notNull? v := by
  cases v with
  | none => rfl
  | some u => simp [notNull?, sorted_sorted]

theorem notNull?_notNull? (v : Option Json) : notNull? (notNull? v) = notNull? v := by
  cases v with
  | none => rfl
  | some u =>
    by_cases h : u.isNull <;>
      simp [notNull?, Option.filter_some, sorted_sorted, isNull_sorted, h]

/-- The marker of a record. Of members with its key the last one counts, and null is none. -/
def cacheControl? (names : List String) (v : Json) : Option Json :=
  notNull? (part? names "cache_control" v.sorted)

section Marker

variable {names : List String} {v : Json} {r : Record} {o : Option Json}

theorem cacheControl?_sorted (names : List String) (v : Json) :
    cacheControl? names v.sorted = cacheControl? names v := by
  rw [cacheControl?, sorted_sorted, cacheControl?]

theorem cacheControl?_object (names : List String) (members : List (String × Json)) :
    cacheControl? names (.object members) =
      notNull? (members.reverse.lookup "cache_control") := by
  rw [cacheControl?, sorted, part?, lookup_sortMembers_eq, sortedMembers_eq, ← List.map_reverse,
    lookup_map_snd, notNull?_map_sorted]

theorem cacheControl?_of_record? (h : record? names v = some r)
    (known : names.contains "cache_control" = true) :
    cacheControl? names v = notNull? (part? names "cache_control" v) := by
  rw [cacheControl?, part?_sorted h known, notNull?_map_sorted]

theorem cacheControl?_ofFields {fs : List (Option (String × Json))} (once : WrittenOnce fs)
    (known : names.contains "cache_control" = true) :
    cacheControl? names (ofFields fs) = notNull? ((ofFields fs).get? "cache_control") :=
  cacheControl?_of_record? (record?_object once) known

theorem notNull?_of_optional {name : String} (h : r.optional name free? = some o) :
    o = notNull? (r.get? name) := by
  rcases Record.optional_eq_some h with ⟨rfl, null⟩ | ⟨u, a, rfl, found, notNull, ha⟩
  · cases found : r.get? name with
    | none => rfl
    | some u =>
      rw [null u found]
      rfl
  · obtain rfl := Option.some.inj ha
    have visible : u.isNull = false := by
      cases u with
      | null => exact absurd rfl notNull
      | _ => rfl
    rw [found, notNull?, Option.map_some, Option.filter_some, isNull_sorted, visible]
    rfl

/-- A marker that is read as an optional field and written again is the same. -/
theorem cacheControl?_again {fs : List (Option (String × Json))} (hr : record? names v = some r)
    (known : names.contains "cache_control" = true)
    (h : r.optional "cache_control" free? = some o) (once : WrittenOnce fs)
    (written : (ofFields fs).get? "cache_control" = o) :
    cacheControl? names (ofFields fs) = cacheControl? names v := by
  rw [cacheControl?_ofFields once known, written, cacheControl?_of_record? hr known,
    notNull?_of_optional h, notNull?_notNull?, Record.get?_eq_part? hr known]

end Marker

end Json

namespace Claude

open Json

/-! ## What is read and written again -/

theorem SystemBlock.cacheControl?_toJson {v : Json} {b : SystemBlock} (h : ofJson? v = some b) :
    cacheControl? ["type", "text", "cache_control"] b.toJson =
      cacheControl? ["type", "text", "cache_control"] v := by
  simp only [ofJson?, Option.bind_eq_bind, Option.bind_eq_some_iff, Option.pure_def,
    Option.some.injEq] at h
  obtain ⟨r, hr, kind, -, text, -, control, hcontrol, rfl⟩ := h
  exact cacheControl?_again hr (by decide) hcontrol (by simp) (by simp)

theorem Tool.cacheControl?_toJson {v : Json} {t : Tool} (h : ofJson? v = some t) :
    cacheControl? fieldNames t.toJson = cacheControl? fieldNames v := by
  simp only [ofJson?, Option.bind_eq_bind, Option.bind_eq_some_iff, Option.pure_def,
    Option.some.injEq] at h
  obtain ⟨r, hr, name, -, description, -, schema, -, kind, -, control, hcontrol, rfl⟩ := h
  exact cacheControl?_again hr (by decide) hcontrol (by simp) (by simp)

namespace Block

/-- Whether a block is kept with its marker : it is a text, or of a kind that is not modelled. -/
def keepsMarker : Block → Bool
  | .text .. | .other _ => true
  | _ => false

/-- The fields of a text. -/
def textFields : List String := ["type", "text", "citations", "cache_control"]

/-- A form is read without its tag. -/
theorem cacheControl?_of_tagged? {v rest : Json} {form : String} {forms names : List String}
    {byPlace : Bool} (h : tagged? "type" forms byPlace v = some (form, rest)) :
    cacheControl? ("type" :: names) v = cacheControl? names rest := by
  unfold tagged? at h
  split at h
  · rename_i members
    rw [List.partition_eq_filter_filter] at h
    dsimp only at h
    split at h
    · obtain ⟨named, -, h⟩ := Option.bind_eq_some_iff.mp h
      obtain ⟨-, rfl⟩ := Prod.mk.inj (Option.some.inj h)
      -- The marker is not looked for under the key that is taken out.
      have untagged := lookup_filter (fun key => !(key == "type")) members.reverse "cache_control"
      rw [List.filter_reverse] at untagged
      rw [cacheControl?_object, cacheControl?_object]
      exact congrArg notNull? untagged.symm
    · cases h
  · rename_i tag items
    obtain ⟨named, -, h⟩ := Option.bind_eq_some_iff.mp h
    obtain ⟨-, rfl⟩ := Prod.mk.inj (Option.some.inj h)
    rfl
  · cases h

theorem cacheControl?_toJson_of_not {b : Block} (h : b.keepsMarker = false) :
    cacheControl? textFields b.toJson = none := by
  cases b with
  | text | other => cases h
  | _ => exact (cacheControl?_ofFields (by simp) (by decide)).trans (by simp [notNull?])

theorem keepsMarker_of_ofForm? {form : String} {v : Json} {b : Block}
    (h : ofForm? form v = some b) (noText : form ≠ "text") : b.keepsMarker = false := by
  unfold ofForm? at h
  split at h <;> simp only [Option.bind_eq_bind, Option.bind_eq_some_iff, Option.pure_def,
    Option.some.injEq, reduceCtorEq] at h
  · exact absurd rfl noText
  · obtain ⟨-, -, -, -, rfl⟩ := h
    rfl
  · obtain ⟨-, -, -, -, -, -, -, -, rfl⟩ := h
    rfl
  · obtain ⟨-, -, -, -, -, -, -, -, rfl⟩ := h
    rfl
  · obtain ⟨-, -, -, -, -, -, rfl⟩ := h
    rfl
  · obtain ⟨-, -, -, -, rfl⟩ := h
    rfl

/-- A block is written with its marker, or with none. -/
theorem cacheControl?_toJson (v : Json) : cacheControl? textFields (ofJson v).toJson =
    if (ofJson v).keepsMarker then cacheControl? textFields v else none := by
  rw [ofJson]
  split
  case h_2 => exact cacheControl?_sorted textFields v
  case h_1 b h =>
    obtain ⟨⟨form, rest⟩, tagged, h⟩ := Option.bind_eq_some_iff.mp h
    by_cases ofText : form = "text"
    · subst ofText
      simp only [ofForm?, Option.bind_eq_bind, Option.bind_eq_some_iff, Option.pure_def,
        Option.some.injEq] at h
      obtain ⟨r, hr, text, -, citations, -, control, hcontrol, rfl⟩ := h
      rw [keepsMarker, if_pos rfl, textFields, cacheControl?_of_tagged? tagged]
      exact cacheControl?_again hr (by decide) hcontrol (by simp) (by simp)
    · have bare := keepsMarker_of_ofForm? h ofText
      rw [bare, cacheControl?_toJson_of_not bare]
      rfl

end Block

theorem System.bind_item? {β : Type} {v : Json} {s : System} {f g : Json → Option β}
    (h : ofJson? v = some s)
    (each : ∀ {u b}, SystemBlock.ofJson? u = some b → f b.toJson = g u) (i : Nat) :
    (s.toJson.item? i).bind f = (v.item? i).bind g := by
  unfold ofJson? at h
  split at h
  · obtain rfl := Option.some.inj h
    rfl
  · obtain ⟨blocks, hblocks, rfl⟩ := Option.map_eq_some_iff.mp h
    rw [toJson, item?_ofList, Option.bind_map]
    exact bind_getElem?_of_listOf? hblocks each i

theorem Content.bind_item? {β : Type} {v : Json} {c : Content} {f g : Json → Option β}
    (h : ofJson? v = some c) (each : ∀ u, f (Block.ofJson u).toJson = g u) (i : Nat) :
    (c.toJson.item? i).bind f = (v.item? i).bind g := by
  unfold ofJson? at h
  split at h
  · obtain rfl := Option.some.inj h
    rfl
  · rename_i items
    obtain rfl := Option.some.inj h
    rw [toJson, item?_ofList, List.getElem?_map, item?, Option.map_map, Option.bind_map]
    exact congrArg (Option.bind _) (funext each)
  · cases h

/-! ## Places -/

/-- A place of a request where a marker can stand : a block of the system prompt, a tool, or a
block of a message. -/
inductive MarkerPlace where
  | system (i : Nat)
  | tool (i : Nat)
  | block (message i : Nat)

namespace MarkerPlace

/-- What stands at a place of a request. -/
def find? : MarkerPlace → Json → Option Json
  | system i, v => (part? Request.fieldNames "system" v).bind (item? i)
  | tool i, v => (part? Request.fieldNames "tools" v).bind (item? i)
  | block m i, v => ((part? Request.fieldNames "messages" v).bind (item? m)).bind fun message =>
    (part? Message.fieldNames "content" message).bind (item? i)

/-- The fields of what stands at a place, as far as it can have a marker. -/
def fieldNames : MarkerPlace → List String
  | system _ => ["type", "text", "cache_control"]
  | tool _ => Tool.fieldNames
  | block _ _ => Block.textFields

/-- The marker at a place of a request. -/
def marker? (p : MarkerPlace) (v : Json) : Option Json :=
  (p.find? v).bind (cacheControl? p.fieldNames)

/-- Whether a marker is kept of what stands at a place. -/
def keepsMarker : MarkerPlace → Json → Bool
  | block _ _, v => (Block.ofJson v).keepsMarker
  | _, _ => true

/-- What is written at a place. -/
def written? : MarkerPlace → Request → Option Json
  | system i, r => (r.system.map System.toJson).bind (item? i)
  | tool i, r => (r.tools.bind (·[i]?)).map Tool.toJson
  | block m i, r => r.messages[m]?.bind fun message => message.content.toJson.item? i

end MarkerPlace

namespace Request

variable {real : Real32 → Json} {r : Request}

/-- What stands at the places of a body, if its prompt, its tools and its messages are those of a
request : each as it is written (`f` is the identity) or in order (`f` is `sorted`). -/
theorem find?_of_parts {w : Json} {f : Json → Json}
    (system : part? fieldNames "system" w = (r.system.map System.toJson).map f)
    (tools : part? fieldNames "tools" w = (r.tools.map (ofList Tool.toJson)).map f)
    (messages : part? fieldNames "messages" w = some (f (ofList Message.toJson r.messages)))
    (items : ∀ v i, (f v).item? i = (v.item? i).map f)
    (content : ∀ m : Message, part? Message.fieldNames "content" (f m.toJson) =
      some (f m.content.toJson)) (p : MarkerPlace) : p.find? w = (p.written? r).map f := by
  cases p with
  | system i =>
    rw [MarkerPlace.find?, system, MarkerPlace.written?]
    cases r.system with
    | none => rfl
    | some s => exact items s.toJson i
  | tool i =>
    rw [MarkerPlace.find?, tools, MarkerPlace.written?]
    cases r.tools with
    | none => rfl
    | some tools => exact (items _ i).trans (congrArg (Option.map f) (item?_ofList _ tools i))
  | block m i =>
    rw [MarkerPlace.find?, messages, Option.bind_some, items, item?_ofList, MarkerPlace.written?]
    cases r.messages[m]? with
    | none => rfl
    | some message =>
      exact (congrArg (Option.bind · (item? i)) (content message)).trans (items _ i)

theorem get?_toJsonWith (real : Real32 → Json) (r : Request) :
    (r.toJsonWith real).get? "system" = r.system.map System.toJson ∧
      (r.toJsonWith real).get? "tools" = r.tools.map (ofList Tool.toJson) ∧
      (r.toJsonWith real).get? "messages" = some (ofList Message.toJson r.messages) := by
  refine ⟨?_, ?_, ?_⟩ <;> simp [toJsonWith]

theorem record?_toJsonWith (real : Real32 → Json) (r : Request) :
    ∃ fields, record? fieldNames (r.toJsonWith real) = some fields :=
  ⟨_, record?_object (by simp : WrittenOnce _)⟩

theorem find?_toJsonWith (p : MarkerPlace) : p.find? (r.toJsonWith real) = p.written? r := by
  obtain ⟨system, tools, messages⟩ := get?_toJsonWith real r
  refine (find?_of_parts (w := r.toJsonWith real) (f := id) ?_ ?_ messages (fun v i => ?_)
    (fun m => rfl) p).trans ?_
  · exact system.trans Option.map_id'.symm
  · exact tools.trans Option.map_id'.symm
  · exact Option.map_id'.symm
  · exact Option.map_id'

/-- A body with the members of a request in order. -/
theorem find?_of_sorted (real : Real32 → Json) {w : Json}
    (same : ∀ name ∈ ["system", "tools", "messages"],
      part? fieldNames name w = (r.toJsonWith real).sorted.get? name) (p : MarkerPlace) :
    p.find? w = (p.written? r).map sorted := by
  obtain ⟨system, tools, messages⟩ := get?_toJsonWith real r
  obtain ⟨fields, hr⟩ := record?_toJsonWith real r
  have sorts (name : String) (known : fieldNames.contains name = true) :=
    get?_sorted_of_record? hr name known
  refine find?_of_parts ?_ ?_ ?_ item?_sorted (fun m => ?_) p
  · rw [same _ (by simp), sorts _ (by decide), system]
  · rw [same _ (by simp), sorts _ (by decide), tools]
  · rw [same _ (by simp), sorts _ (by decide), messages, Option.map_some]
  · have once : WrittenOnce [field "role" m.role.toJson, field "content" m.content.toJson] := by
      simp
    have read : record? Message.fieldNames m.toJson = some _ := record?_object once
    exact part?_sorted read (by decide)

theorem fields_of_ofJson? {v : Json} (h : ofJson? v = some r) :
    ∃ fields, record? fieldNames v = some fields ∧
      fields.required "messages" (listOf? Message.ofJson?) = some r.messages ∧
      fields.optional "system" System.ofJson? = some r.system ∧
      fields.optional "tools" (listOf? Tool.ofJson?) = some r.tools := by
  obtain ⟨fields, hr, h⟩ := Option.bind_eq_some_iff.mp h
  obtain ⟨model, -, h⟩ := Option.bind_eq_some_iff.mp h
  obtain ⟨messages, hmessages, h⟩ := Option.bind_eq_some_iff.mp h
  obtain ⟨system, hsystem, h⟩ := Option.bind_eq_some_iff.mp h
  obtain ⟨maxTokens, -, h⟩ := Option.bind_eq_some_iff.mp h
  obtain ⟨temperature, -, h⟩ := Option.bind_eq_some_iff.mp h
  obtain ⟨topP, -, h⟩ := Option.bind_eq_some_iff.mp h
  obtain ⟨topK, -, h⟩ := Option.bind_eq_some_iff.mp h
  obtain ⟨stops, -, h⟩ := Option.bind_eq_some_iff.mp h
  obtain ⟨tools, htools, h⟩ := Option.bind_eq_some_iff.mp h
  obtain ⟨choice, -, h⟩ := Option.bind_eq_some_iff.mp h
  obtain ⟨stream, -, h⟩ := Option.bind_eq_some_iff.mp h
  obtain ⟨metadata, -, h⟩ := Option.bind_eq_some_iff.mp h
  obtain ⟨thinking, -, h⟩ := Option.bind_eq_some_iff.mp h
  obtain rfl := Option.some_inj.mp h
  exact ⟨fields, hr, hmessages, hsystem, htools⟩

/-- A request is written with the markers that it is read with, except in blocks that are kept
without one. -/
theorem marker?_written {v : Json} (h : ofJson? v = some r) (p : MarkerPlace) :
    (p.written? r).bind (cacheControl? p.fieldNames) =
      (p.find? v).bind fun u => if p.keepsMarker u then cacheControl? p.fieldNames u else none := by
  obtain ⟨fields, hr, hmessages, hsystem, htools⟩ := fields_of_ofJson? h
  cases p with
  | system i =>
    rw [MarkerPlace.find?, ← Record.get?_eq_part? hr (by decide), MarkerPlace.written?,
      Option.bind_assoc, Option.bind_assoc, Option.bind_map]
    exact Record.bind_optional hsystem rfl fun u s hs =>
      System.bind_item? hs SystemBlock.cacheControl?_toJson i
  | tool i =>
    rw [MarkerPlace.find?, ← Record.get?_eq_part? hr (by decide), MarkerPlace.written?,
      Option.bind_assoc, Option.bind_map, Option.bind_assoc]
    exact Record.bind_optional htools rfl fun u tools hu =>
      bind_getElem?_of_listOf? hu Tool.cacheControl?_toJson i
  | block m i =>
    obtain ⟨u, found, hu⟩ := Option.bind_eq_some_iff.mp hmessages
    rw [MarkerPlace.find?, ← Record.get?_eq_part? hr (by decide), MarkerPlace.written?, found,
      Option.bind_some, Option.bind_assoc, Option.bind_assoc]
    refine bind_getElem?_of_listOf? hu (fun {u message} hmessage => ?_) m
    obtain ⟨parts, hparts, hmessage⟩ := Option.bind_eq_some_iff.mp hmessage
    obtain ⟨role, -, hmessage⟩ := Option.bind_eq_some_iff.mp hmessage
    obtain ⟨content, hcontent, hmessage⟩ := Option.bind_eq_some_iff.mp hmessage
    obtain rfl := Option.some.inj hmessage
    obtain ⟨c, found, hc⟩ := Option.bind_eq_some_iff.mp hcontent
    rw [← Record.get?_eq_part? hparts (by decide), found, Option.bind_some]
    exact Content.bind_item? hc Block.cacheControl?_toJson i

end Request

end Claude

/-! ## Bodies -/

open Claude Json

/-- The bodies that native backends are sent for a request. -/
inductive NativeBody (r : Request) : Json → Prop
  | messages (b : MessagesBackend) (stream : Bool) :
      NativeBody r (b.request { r with stream := some stream }).body
  | prediction {stream : Bool} {w : Json} (made : PredictionBackend.body r stream = .ok w) :
      NativeBody r w
  | invocation {w : Json} (made : InvocationBackend.body r = .ok w) : NativeBody r w

theorem exists_of_bind_eq_ok {ε α β : Type} {x : Except ε α} {f : α → Except ε β} {b : β}
    (h : x >>= f = .ok b) : ∃ a, x = .ok a ∧ f a = .ok b := by
  cases x with
  | error e => cases h
  | ok a => exact ⟨a, rfl, h⟩

/-- Hosting leaves the other members of a request as they are. -/
theorem lookup_hostedMembers {r : Request} {without : List String} {members : List (String × Json)}
    (h : hostedMembers r without = .ok members) {name : String} (kept : name ∉ without) :
    members.lookup name = (r.toJsonWith widenReal32).sorted.get? name := by
  have object : ∃ all, (r.toJsonWith widenReal32).sorted = .object all := ⟨_, rfl⟩
  obtain ⟨all, sorts⟩ := object
  rw [hostedMembers, sorts] at h
  obtain ⟨-, -, h⟩ := exists_of_bind_eq_ok h
  obtain rfl := Except.ok.inj h
  rw [sorts, lookup_filter (fun key => !without.contains key), if_pos (by simpa using kept)]
  rfl

namespace NativeBody

variable {r : Request} {w : Json}

theorem find?_eq (sent : NativeBody r w) (p : MarkerPlace) :
    p.find? w = p.written? r ∨ p.find? w = (p.written? r).map sorted := by
  cases sent with
  | messages b stream =>
    have body : (b.request { r with stream := some stream }).body =
        Request.toJson { r with stream := some stream } := by
      rw [MessagesBackend.request]
      cases b.style <;> rfl
    left
    rw [body]
    -- No place depends on whether a stream is asked for.
    exact (Request.find?_toJsonWith p).trans (by cases p <;> rfl)
  | prediction made =>
    right
    obtain ⟨members, hm, made⟩ := exists_of_bind_eq_ok made
    obtain rfl := Except.ok.inj made
    refine Request.find?_of_sorted widenReal32 (fun name known => ?_) p
    have apart : name ≠ "anthropic_version" ∧ name ≠ "stream" ∧ name ∉ ["model"] := by
      revert name
      decide
    rw [part?, lookup_insertMember, if_neg apart.1, lookup_insertMember, if_neg apart.2.1,
      lookup_hostedMembers hm apart.2.2]
  | invocation made =>
    right
    obtain ⟨members, hm, made⟩ := exists_of_bind_eq_ok made
    obtain rfl := Except.ok.inj made
    refine Request.find?_of_sorted widenReal32 (fun name known => ?_) p
    have apart : name ≠ "anthropic_version" ∧ name ∉ ["model", "stream"] := by
      revert name
      decide
    rw [part?, lookup_insertMember, if_neg apart.1, lookup_hostedMembers hm apart.2]

theorem marker?_eq (sent : NativeBody r w) (p : MarkerPlace) :
    p.marker? w = (p.written? r).bind (cacheControl? p.fieldNames) := by
  rw [MarkerPlace.marker?]
  rcases sent.find?_eq p with found | found <;> rw [found]
  rw [Option.bind_map]
  exact congrArg (Option.bind _) (funext (cacheControl?_sorted p.fieldNames))

end NativeBody

/-- A marker is at a place of the body that a native backend is sent if and only if it is there in
the request, and what stands there is no block of a kind that is kept without its marker. -/
theorem cacheMarkers_nativeBody {v w : Json} {r : Request} (read : Request.ofJson? v = some r)
    (sent : NativeBody r w) (p : MarkerPlace) (c : Json) : p.marker? w = some c ↔
      p.marker? v = some c ∧ (p.find? v).all p.keepsMarker = true := by
  rw [sent.marker?_eq p, Request.marker?_written read, MarkerPlace.marker?]
  cases p.find? v with
  | none => simp
  | some u => by_cases keeps : p.keepsMarker u <;> simp [keeps]

/-- The marker of the examples. -/
def ephemeral : Json := .object [("type", .string "ephemeral")]

/-- A request with a marker at a block of the prompt, at a tool and at blocks of several kinds. -/
def marked : Json := .object [
  ("model", .string "m"), ("max_tokens", .nat 1),
  ("system", .array [.object [("text", .string "Be brief."), ("cache_control", ephemeral)]]),
  ("tools", .array [.object [("name", .string "f"), ("cache_control", ephemeral)]]),
  ("messages", .array [
    .object [("role", .string "assistant"), ("content", .array [
      .object [("type", .string "tool_use"), ("id", .string "a"), ("name", .string "f"),
        ("cache_control", ephemeral)]])],
    .object [("role", .string "user"), ("content", .array [
      .object [("type", .string "tool_result"), ("tool_use_id", .string "a"),
        ("cache_control", ephemeral)],
      .object [("type", .string "image"), ("source", .object [("type", .string "url"),
        ("url", .string "u")]), ("cache_control", ephemeral)],
      .object [("type", .string "document"), ("cache_control", ephemeral)],
      .object [("type", .string "text"), ("text", .string "Go on."),
        ("cache_control", ephemeral)]])]])]

theorem cacheMarkers_nativeBody_marked : ∃ r w, Request.ofJson? marked = some r ∧
    PredictionBackend.body r true = .ok w ∧
    ∀ p ∈ [MarkerPlace.system 0, .tool 0, .block 1 2, .block 1 3],
      p.marker? w = some ephemeral := by
  have valid : ((Request.ofJson? marked).bind fun r =>
      (PredictionBackend.body r true).toOption).isSome = true := by decide +kernel
  obtain ⟨w, h⟩ := Option.isSome_iff_exists.mp valid
  obtain ⟨r, read, h⟩ := Option.bind_eq_some_iff.mp h
  have made : PredictionBackend.body r true = .ok w := by
    cases hb : PredictionBackend.body r true with
    | error e =>
      rw [hb] at h
      cases h
    | ok sent =>
      rw [hb] at h
      exact congrArg Except.ok (Option.some.inj h)
  have there : ∀ p ∈ [MarkerPlace.system 0, .tool 0, .block 1 2, .block 1 3],
      p.marker? marked = some ephemeral ∧ (p.find? marked).all p.keepsMarker = true := by
    decide +kernel
  exact ⟨r, w, read, made, fun p hp =>
    (cacheMarkers_nativeBody read (.prediction made) p ephemeral).mpr (there p hp)⟩

/-- The markers of a tool use, of a result and of an image are lost. -/
theorem cacheMarkers_lost_marked :
    (∀ p ∈ [MarkerPlace.block 0 0, .block 1 0, .block 1 1], p.marker? marked = some ephemeral) ∧
      ∃ r, Request.ofJson? marked = some r ∧
        ∀ p ∈ [MarkerPlace.block 0 0, .block 1 0, .block 1 1],
          p.marker? (MessagesBackend.request ⟨"anthropic", "u", "k", .apiKey⟩
            { r with stream := some false }).body = none := by
  refine ⟨by decide +kernel, ?_⟩
  have lost : (Request.ofJson? marked).any (fun r =>
      [MarkerPlace.block 0 0, .block 1 0, .block 1 1].all fun p =>
        (p.marker? (MessagesBackend.request ⟨"anthropic", "u", "k", .apiKey⟩
          { r with stream := some false }).body).isNone) = true := by decide +kernel
  cases hr : Request.ofJson? marked with
  | none =>
    rw [hr] at lost
    cases lost
  | some r =>
    rw [hr] at lost
    exact ⟨r, rfl, fun p hp => Option.isNone_iff_eq_none.mp (List.all_eq_true.mp lost p hp)⟩

end Switchboard
