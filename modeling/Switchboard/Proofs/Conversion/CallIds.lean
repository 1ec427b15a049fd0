import Mathlib.Data.List.Forall2
import Mathlib.Data.List.Range
import Switchboard.Proofs.Chat.Conversation
import Switchboard.Proofs.Conversion.Streaming

/-!
# Ids of Gemini's calls

Whatever the functions are named, an id is of one call only : the number of the call is what
stands behind the last underscore, and a number has none, so that neither the underscores nor
the digits in a name can be taken for those of the number (`callId_inj`). Calls that are
numbered one after another thus get distinct ids (`identifies_numberCalls`).

An answer numbers its calls from zero, and so does a stream, where the numbers go on from event
to event (`deltas_mapTimed`). `callIds_distinct` says what this comes to : all ids of an answer,
or of a whole stream, are distinct, the indices of a stream are zero, one, two and so on, and
the name of a function is had back from the id of its call if and only if it is not empty.
-/

namespace Switchboard.Gemini

/-! ## Ids -/

theorem callId_inj {name name' : String} {i j : Nat} :
    callId name i = callId name' j ↔ name = name' ∧ i = j := by
  constructor
  · intro h
    have texts := congrArg String.toList h
    rw [toList_callId, toList_callId, List.append_cancel_left_eq] at texts
    have parts := congrArg splitLastUnderscore texts
    rw [splitLastUnderscore_append (underscore_notMem_toDigits i),
      splitLastUnderscore_append (underscore_notMem_toDigits j), Option.some.injEq,
      Prod.mk.injEq] at parts
    obtain ⟨names, digits⟩ := parts
    refine ⟨String.toList_inj.mp names, ?_⟩
    calc i = Nat.ofDigitChars 10 (Nat.toDigits 10 i) 0 := Nat.ofDigitChars_ten_toDigits.symm
      _ = Nat.ofDigitChars 10 (Nat.toDigits 10 j) 0 := by rw [digits]
      _ = j := Nat.ofDigitChars_ten_toDigits
  · rintro ⟨rfl, rfl⟩
    rfl

/-- From the id of a call without a name its number is read back, not that there is no name. -/
theorem functionName_callId_eq_self_iff (name : String) (position : Nat) :
    functionName (callId name position) = name ↔ name ≠ "" := by
  refine ⟨?_, fun h => functionName_callId h position⟩
  rintro h rfl
  rw [functionName_callId_eq] at h
  exact absurd (congrArg String.toList h) (by simp)

/-- Ids for calls : one for each, no two of them alike, and from each the name of the function
is read back, if it has one. -/
structure Identifies (calls : List FunctionCall) (ids : List String) : Prop where
  distinct : ids.Nodup
  named : List.Forall₂ (fun call id => call.name ≠ "" → functionName id = call.name) calls ids

/-- Calls that are numbered one after another have distinct ids. -/
theorem identifies_numberCalls (first : Nat) (calls : List FunctionCall) :
    Identifies calls ((numberCalls first calls).map (·.2.1)) where
  distinct := by
    have numbers : ((numberCalls first calls).map (·.1)).Nodup := by
      rw [map_fst_numberCalls]
      exact List.nodup_range'
    refine List.pairwise_map.mpr ((List.pairwise_map.mp numbers).imp_of_mem ?_)
    intro m n hm hn distinct same
    obtain ⟨_, -, _, rfl⟩ := exists_of_mem_numberCalls hm
    obtain ⟨_, -, _, rfl⟩ := exists_of_mem_numberCalls hn
    exact distinct (callId_inj.mp same).2
  named := by
    induction calls generalizing first with
    | nil => exact .nil
    | cons call calls ih => exact .cons (fun h => functionName_callId h first) (ih (first + 1))

/-! ## Calls of an answer -/

theorem calls_choices_toChat (r : Response) (model : String) (now : Instant) :
    (r.toChat model now).choices.flatMap (·.message.calls) =
      (numberCalls 0 r.calls).map toToolCall := by
  rw [Response.toChat, Response.calls, Response.parts]
  cases r.candidates with
  | nil => rfl
  | cons c rest =>
    show c.toChoice.message.calls ++ [] = (numberCalls 0 c.calls).map toToolCall
    rw [List.append_nil, Candidate.toChoice, Chat.Message.calls]
    cases c.calls <;> rfl

/-! ## Calls of a stream -/

namespace ChunkMapper

/-- The chunks of events, each made at its time. -/
def mapTimed (m : ChunkMapper) : List (Response × Instant) → List Chat.Chunk
  | [] => []
  | (e, now) :: rest => (m.map e now).1 :: mapTimed (m.map e now).2 rest

/-- The pieces of calls in all choices of a chunk. -/
def deltas (chunk : Chat.Chunk) : List Chat.ToolCallDelta :=
  chunk.choices.flatMap fun choice => choice.delta.toolCalls.getD []

theorem deltas_map (m : ChunkMapper) (e : Response) (now : Instant) :
    deltas (m.map e now).1 = (numberCalls m.nextCall e.calls).map fun n =>
      Relay.Merging.wholePiece n.1 (toToolCall n) := by
  have one : (m.map e now).1.choices.head?.toList = (m.map e now).1.choices := by
    unfold map
    cases e.candidates <;> rfl
  rw [← callDeltas_map, Relay.Merging.callDeltas, one, deltas]

/-- The numbers of calls go on from event to event. -/
theorem deltas_mapTimed (m : ChunkMapper) (events : List (Response × Instant)) :
    (m.mapTimed events).flatMap deltas =
      (numberCalls m.nextCall (events.flatMap (·.1.calls))).map fun n =>
        Relay.Merging.wholePiece n.1 (toToolCall n) := by
  induction events generalizing m with
  | nil => rfl
  | cons event events ih =>
    rw [mapTimed, List.flatMap_cons, deltas_map, ih, map_snd, List.flatMap_cons,
      numberCalls_append, List.map_append]

end ChunkMapper

/-- The calls of an answer get distinct ids, whatever the functions are named, and so do all
calls of a stream, the indices of which are zero, one, two and so on ; and the name of a function
is had back from an id, if there is one. -/
theorem callIds_distinct (model : String) :
    (∀ (r : Response) (now : Instant), Identifies r.calls
      (((r.toChat model now).choices.flatMap (·.message.calls)).map (·.id))) ∧
    (∀ events : List (Response × Instant),
      let calls := events.flatMap (·.1.calls)
      let deltas := ((ChunkMapper.start model).mapTimed events).flatMap ChunkMapper.deltas
      deltas.map (·.index) = List.range calls.length ∧
        ∃ ids, deltas.map (·.id) = ids.map some ∧ Identifies calls ids) ∧
    ∀ (name : String) (position : Nat),
      functionName (callId name position) = name ↔ name ≠ "" := by
  refine ⟨fun r now => ?_, fun events => ?_, functionName_callId_eq_self_iff⟩
  · rw [calls_choices_toChat, List.map_map]
    exact identifies_numberCalls 0 r.calls
  · intro calls deltas
    have pieces : deltas = (numberCalls 0 calls).map fun n =>
        Relay.Merging.wholePiece n.1 (toToolCall n) := ChunkMapper.deltas_mapTimed _ events
    have indices : deltas.map (·.index) = (numberCalls 0 calls).map (·.1) := by
      rw [pieces, List.map_map]
      rfl
    have ids : deltas.map (·.id) = ((numberCalls 0 calls).map (·.2.1)).map some := by
      rw [pieces, List.map_map, List.map_map]
      rfl
    refine ⟨?_, _, ids, identifies_numberCalls 0 calls⟩
    rw [indices, map_fst_numberCalls, List.range_eq_range']

/-- Names that end like numbers. -/
example : callId "f_1" 0 = "call_f_1_0" ∧ functionName "call_f_1_0" = "f_1" := by decide +kernel

end Switchboard.Gemini
