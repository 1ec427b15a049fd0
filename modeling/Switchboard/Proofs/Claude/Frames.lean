import Mathlib.Data.List.Basic
import Switchboard.Proofs.Http.ServerEvent
import Switchboard.Proofs.Json.Opening
import Switchboard.Relay.Verbatim

/-!
# Frames that can be told apart

The events of a message are sent as server-sent events, one frame behind the other, and the
client has to find in the text the events that were sent. A frame is two lines and a blank one,
so that it is found again if the name and the data of the event are a line each
(`ofChars_frame`). For the data they always are, since a value is written without a line end
(`Json.isLine_print`). So is the name of an event that is modelled, but that of any other
event is what its value says, and is taken over as it stands.

`ofChars_frames_iff` : the frames of some events are read as just these events, whatever they
are, if and only if the names of those that are not modelled are event names, that is, not empty
and without a line end. A name with a line end in it can make two events of one
(`frame_of_forged`).
-/

namespace Switchboard

/-! ## The text of a value is a line -/

theorem Numeral.isLine_write (n : JsonNumber) : IsLine (write n) := fun c hc => by
  have inside := isNumeral_write n c hc
  constructor <;> rintro rfl <;> exact absurd inside (by decide)

namespace Json

theorem isLine_escapeChar (c : Char) : IsLine (escapeChar c) := by
  unfold escapeChar
  split_ifs with quote backslash b f n r t control
  · decide
  · decide
  · decide
  · decide
  · decide
  · decide
  · decide
  · have digit : ∀ d : Fin 16, d.val.digitChar ≠ '\n' ∧ d.val.digitChar ≠ '\r' := by decide
    have high := digit ⟨c.toNat / 16, by omega⟩
    have low := digit ⟨c.toNat % 16, by omega⟩
    simp [high, low]
  · simpa using ⟨n, r⟩

theorem isLine_quoted (s : String) : IsLine (quoted s) := by
  have inside : IsLine (s.toList.flatMap escapeChar) := by
    intro c hc
    obtain ⟨d, -, hd⟩ := List.mem_flatMap.mp hc
    exact isLine_escapeChar d c hd
  simp [quoted, inside]

mutual

theorem isLine_print : (v : Json) → IsLine v.print
  | .null | .bool true | .bool false => by decide
  | .number n => Numeral.isLine_write n
  | .string s => isLine_quoted s
  | .array items => by simpa [print] using isLine_printItems items
  | .object members => by simpa [print] using isLine_printMembers members

theorem isLine_printItems : (items : List Json) → IsLine (printItems items)
  | [] => by decide
  | [item] => by simpa [printItems] using isLine_print item
  | item :: next :: rest => by
    simpa [printItems] using ⟨isLine_print item, isLine_printItems (next :: rest)⟩

theorem isLine_printMembers : (members : List (String × Json)) → IsLine (printMembers members)
  | [] => by decide
  | [(key, value)] => by simpa [printMembers] using ⟨isLine_quoted key, isLine_print value⟩
  | (key, value) :: next :: rest => by
    simpa [printMembers] using
      ⟨isLine_quoted key, isLine_print value, isLine_printMembers (next :: rest)⟩

end

theorem isLine_render (v : Json) : IsLine v.render.toList := by
  rw [render, String.toList_ofList]
  exact isLine_print v

end Json

/-! ## Frames -/

namespace Claude.Event

open Http (ServerEvent)
open Http.ServerEvent (IsEventName)

/-- The server-sent event that an event is meant to be. -/
def sent (e : Event) : ServerEvent := ⟨e.name, e.toJson.render⟩

/-- The text that is sent for events. -/
def frames (events : List Event) : String := String.join (events.map frame)

theorem frames_cons (e : Event) (events : List Event) :
    frames (e :: events) = e.frame ++ frames events := by
  rw [frames, List.map_cons, String.join_cons, frames]

/-- An event that is modelled is named for its kind. -/
theorem name_mem_forms {e : Event} (h : ∀ v, e ≠ .other v) : e.name ∈ forms := by
  cases e with
  | other v => exact absurd rfl (h v)
  | _ => simp [name, forms]

theorem isEventName_of_modelled {e : Event} (h : ∀ v, e ≠ .other v) : IsEventName e.name := by
  have kinds : ∀ form ∈ forms, IsEventName form := by decide
  exact kinds _ (name_mem_forms h)

/-- A frame is read as the event that is sent with it. -/
theorem ofChars_frame {e : Event} (named : IsEventName e.name) (rest : List Char) :
    ServerEvent.ofChars (e.frame.toList ++ rest) = e.sent :: ServerEvent.ofChars rest := by
  have text : e.frame.toList ++ rest = "event: ".toList ++ e.name.toList ++
      '\n' :: ("data: ".toList ++ e.toJson.render.toList ++ '\n' :: '\n' :: rest) := by
    simp only [frame, String.toList_append, List.append_assoc]
    rfl
  rw [text, ServerEvent.ofChars_event (by simpa using named.1) named.2 (Json.isLine_render _),
    String.ofList_toList, String.ofList_toList, sent]

/-- The frames of events are read as the events that are sent with them, one for each, if and
only if the events that are not modelled have names that an event can be sent with. -/
theorem ofChars_frames_iff (events : List Event) :
    ServerEvent.ofChars (frames events).toList = events.map sent ↔
      ∀ v, Event.other v ∈ events → IsEventName (Event.other v).name := by
  constructor
  · intro h v hv
    have read : (Event.other v).sent ∈ ServerEvent.ofChars (frames events).toList :=
      h ▸ List.mem_map_of_mem hv
    exact ServerEvent.isEventName_of_mem_ofChars read
  · intro named
    induction events with
    | nil => exact ServerEvent.ofChars_nil
    | cons e events ih =>
      have first : IsEventName e.name := by
        by_cases modelled : ∀ v, e ≠ .other v
        · exact isEventName_of_modelled modelled
        · obtain ⟨v, rfl⟩ := not_forall_not.mp modelled
          exact named v List.mem_cons_self
      have others := ih fun v hv => named v (List.mem_cons_of_mem _ hv)
      rw [frames_cons, String.toList_append, ofChars_frame first, others, List.map_cons]

/-- What a backend may send for an event : its kind is a text of several lines. -/
def forged : Json := .object [("type", .string "x\ndata: 1\n\nevent: y")]

/-- The event is passed on as it is, and the client reads two events of its frame, neither of
which it is. -/
theorem frame_of_forged : let e := ofJson forged
    e = .other forged ∧ (Relay.accept e Relay.Verbatim.start).2 = [e] ∧
      ServerEvent.ofChars e.frame.toList = [⟨"x", "1"⟩, ⟨"y", e.toJson.render⟩] ∧
      e.sent ∉ ServerEvent.ofChars e.frame.toList := by
  decide +kernel

end Claude.Event

end Switchboard
