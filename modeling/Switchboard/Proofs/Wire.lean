import Switchboard.Proofs.Chat.Response
import Switchboard.Proofs.Claude.Request

/-!
# What comes back from the wire

A gateway that passes a message on reads it, and writes what it has read. Nothing that it knows
of may be lost on that way : what is written must be read as the same again, or a second gateway
would pass on another message than the first. What it knows nothing about, a block or an event
of a kind that came later, must reach a native backend as it was.

`wire_survives` says so of every value without real numbers whose keys are distinct. For the
types of both protocols, what is read of it is written so that the same is read again. For the
types of the native protocol, moreover, `Kept` follows the value down to its leaves : a member
that is not null is there again, read as the same or, where it is free, the same value, and an
event, a block or a delta of no modelled kind, or that does not fit its kind, is written back
as it was. A value is the same if it has the same members, which stand in the order of their
keys once it has been read.

The kind of an event is the text that its tag says, or the place of the kind among the others
if the tag says a number. That makes one value of an unknown kind into another value
(`ping_of_number`), which is what `kind?` leaves room for in the main statement.
-/

namespace Switchboard

open Json

/-- What is read of the value is written so that the same is read again. -/
def Returns (α : Type) [Codec α] (v : Json) : Prop :=
  ∀ a : α, Codec.read? v = some a → Codec.read? (Codec.write a) = some a

/-- Of a plain value, what is read as one of the six types is written so that it is read as the
same again, and of the native types all is kept that their `Kept` lists. -/
theorem wire_survives {v : Json} (plain : v.isPlain) :
    (Returns Claude.Event v ∧ Returns Claude.Request v ∧ Returns Claude.Response v ∧
      Returns Chat.Request v ∧ Returns Chat.Response v ∧ Returns Chat.Chunk v) ∧
    Claude.Event.Kept v (Claude.Event.ofJson v).toJson ∧
    (∀ q, Claude.Request.ofJson? v = some q → Claude.Request.Kept v q.toJson) ∧
    ∀ m, Claude.Response.ofJson? v = some m → Claude.Response.Kept v m.toJson := by
  refine ⟨⟨?_, ?_, ?_, ?_, ?_, ?_⟩, Claude.Event.survives.kept plain rfl,
    fun _ hq => Claude.Request.survives.kept plain hq,
    fun _ hm => Claude.Response.survives.kept plain hm⟩
  · exact fun _ h => Claude.Event.survives.again plain h
  · exact fun _ h => Claude.Request.survives.again plain h
  · exact fun _ h => Claude.Response.survives.again plain h
  · exact fun _ h => Chat.Request.survives.again plain h
  · exact fun _ h => Chat.Response.survives.again plain h
  · exact fun _ h => Chat.Chunk.survives.again plain h

/-- The start of a block that says it is a text and has a number for it. -/
def spoiledStart : Json := .object [("type", .string "content_block_start"), ("index", .nat 0),
  ("content_block", .object [("type", .string "text"), ("text", .nat 7)])]

/-- The block is written back at its place as it was. -/
theorem wire_survives_spoiledStart : spoiledStart.isPlain ∧
    (Claude.Event.ofJson spoiledStart).toJson.get? "content_block" =
      some (.object [("text", .nat 7), ("type", .string "text")]) := by
  have plain : spoiledStart.isPlain := by decide
  obtain ⟨-, kept, -, -⟩ := wire_survives plain
  obtain ⟨-, -, block⟩ := kept.2.fit "content_block_start" rfl rfl
  obtain ⟨w, hw, -, open'⟩ := block _ rfl nofun
  exact ⟨plain, hw.trans (congrArg some (open'.unfit "text" rfl rfl))⟩

/-- An event with a number for its kind, which names none of the kinds, is not written back as
it was : it becomes a ping, and what else it says is lost. -/
theorem ping_of_number : let v := Json.object [("retry", .nat 5), ("type", .nat 6)]
    v.isPlain ∧ (∀ form ∈ Claude.Event.forms, v.get? "type" ≠ some (.string form)) ∧
      (Claude.Event.ofJson v).toJson = .object [("type", .string "ping")] ∧
      (Claude.Event.ofJson v).toJson ≠ v.sorted := by
  decide

end Switchboard
