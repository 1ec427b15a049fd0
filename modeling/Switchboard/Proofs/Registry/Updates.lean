import Switchboard.Proofs.Health.Store

/-!
# Updates of the registry

The registry is told at run time what becomes of the channels (`Update`). An update is for one
id ; if the ids are distinct it changes the entry that has the id and no other
(`entries_update`), and that entry keeps what its channel was configured as, but for the status.
So whatever the registry is told, its channels keep their order, and each is what it was
configured as with the status that it was given last (`channels_run`).
-/

namespace Switchboard.Registry

/-! ## Updates -/

/-- What the registry is told at run time. -/
inductive Update where
  | status (id : Nat) (status : ChannelStatus) (reason : String)
  | responseTime (id time : Nat)
  deriving DecidableEq, Repr

/-- The registry after an update. One for a channel that is not there changes nothing. -/
def update (r : Registry) : Update → Registry
  | .status id status reason => (r.settle () (r.setStatus id status reason)).2.1
  | .responseTime id time => (r.settle () (r.setResponseTime id time)).2.1

/-- The registry after updates. -/
def run (r : Registry) (updates : List Update) : Registry := updates.foldl update r

/-- The id that an update is for. -/
def Update.id : Update → Nat
  | .status id _ _ => id
  | .responseTime id _ => id

/-- What an update does to the entry that it is for. -/
def Update.edit : Update → Entry → Entry
  | .status _ given reason => .withStatus given reason
  | .responseTime _ time => fun e => { e with responseTime := some time }

theorem Update.keepsId_edit (u : Update) : KeepsId u.edit := by
  cases u <;> exact fun _ => rfl

theorem update_eq (r : Registry) (u : Update) : r.update u = r.change u.id u.edit := by
  cases u <;> exact congrArg Prod.fst (settle_modify r () _ _)

theorem isDistinct_update {r : Registry} (distinct : r.IsDistinct) (u : Update) :
    (r.update u).IsDistinct := by
  rwa [IsDistinct, update_eq, ids_change u.keepsId_edit]

theorem isDistinct_run {r : Registry} (distinct : r.IsDistinct) (updates : List Update) :
    (r.run updates).IsDistinct := by
  induction updates generalizing r with
  | nil => exact distinct
  | cons u rest ih => exact ih (isDistinct_update distinct u)

/-! ## What becomes of a channel -/

/-- A channel after an update : it gets the status that is meant for it. -/
def Update.onChannel (c : Channel) : Update → Channel
  | .status id given _ => if c.id = id then { c with status := given } else c
  | .responseTime _ _ => c

/-- A channel after updates. -/
def after (updates : List Update) (c : Channel) : Channel := updates.foldl Update.onChannel c

theorem Update.onChannel_eq (c : Channel) (u : Update) :
    u.onChannel c = { c with status := (u.onChannel c).status } := by
  cases u with
  | responseTime id time => rfl
  | status id given reason =>
    rw [onChannel]
    split <;> rfl

/-- Updates leave a channel what it is, but for its status. -/
theorem after_eq (updates : List Update) (c : Channel) :
    after updates c = { c with status := (after updates c).status } := by
  induction updates generalizing c with
  | nil => rfl
  | cons u rest ih =>
    have step : after (u :: rest) c = after rest (u.onChannel c) := rfl
    rw [step, ih, Update.onChannel_eq]

@[simp] theorem id_after (updates : List Update) (c : Channel) : (after updates c).id = c.id := by
  rw [after_eq]

@[simp] theorem serves_after (updates : List Update) (c : Channel) (model : String) :
    (after updates c).serves model = c.serves model := by
  rw [after_eq]
  rfl

theorem Update.onChannel_of_ne {c : Channel} {u : Update} (h : c.id ≠ u.id) :
    u.onChannel c = c := by
  cases u with
  | status id given reason => exact if_neg h
  | responseTime id time => rfl

theorem Update.channel_edit {e : Entry} {u : Update} (h : e.channel.id = u.id) :
    (u.edit e).channel = u.onChannel e.channel := by
  cases u with
  | status id given reason => exact (if_pos h).symm
  | responseTime id time => rfl

/-! ## What becomes of the entries -/

/-- An entry after an update : it is changed if the update is for it. -/
def Update.onEntry (u : Update) (e : Entry) : Entry :=
  if e.channel.id = u.id then u.edit e else e

theorem Update.channel_onEntry (u : Update) (e : Entry) :
    (u.onEntry e).channel = u.onChannel e.channel := by
  rw [onEntry]
  split
  case isTrue h => exact channel_edit h
  case isFalse h => exact (onChannel_of_ne h).symm

/-- An update of the registry is one of each of its entries, if their ids are distinct. -/
theorem entries_update {r : Registry} (distinct : r.IsDistinct) (u : Update) :
    (r.update u).entries = r.entries.map u.onEntry := by
  obtain ⟨entries⟩ := r
  simp only [update_eq, change]
  induction entries with
  | nil => rfl
  | cons e rest ih =>
    obtain ⟨new, ofRest⟩ := List.nodup_cons.mp distinct
    rw [getD_modifyFirst_cons, List.map_cons, Update.onEntry]
    by_cases he : e.channel.id = u.id
    · -- the first entry with the id is the only one
      have others : ∀ e' ∈ rest, u.onEntry e' = e' := fun e' he' =>
        if_neg fun h => new (List.mem_map.mpr ⟨e', he', h.trans he.symm⟩)
      rw [if_pos he, if_pos he, List.map_congr_left others, List.map_id']
    · rw [if_neg he, if_neg he, ih ofRest]

theorem channels_update {r : Registry} (distinct : r.IsDistinct) (u : Update) :
    (r.update u).channels = r.channels.map u.onChannel := by
  rw [channels, entries_update distinct, channels, List.map_map, List.map_map]
  exact List.map_congr_left fun e _ => u.channel_onEntry e

/-- Whatever happens, the channels keep their order and all but their status. -/
theorem channels_run {r : Registry} (distinct : r.IsDistinct) (updates : List Update) :
    (r.run updates).channels = r.channels.map (after updates) := by
  induction updates generalizing r with
  | nil => exact (List.map_id _).symm
  | cons u rest ih =>
    calc (r.run (u :: rest)).channels
      _ = (r.update u).channels.map (after rest) := ih (isDistinct_update distinct u)
      _ = r.channels.map (after (u :: rest)) := by
        rw [channels_update distinct, List.map_map]
        rfl

@[simp] theorem channels_ofChannels (channels : List Channel) :
    (ofChannels channels).channels = channels := by
  simp [ofChannels, Registry.channels, Function.comp_def]

section OfChannels

variable {channels : List Channel} (distinct : (channels.map (·.id)).Nodup)

include distinct

theorem isDistinct_ofChannels : (ofChannels channels).IsDistinct := by
  rwa [IsDistinct, ← map_id_channels, channels_ofChannels]

/-- Under the id of a configured channel the registry has what became of it. -/
theorem channel?_run (updates : List Update) {c : Channel} (hc : c ∈ channels) :
    ((ofChannels channels).run updates).channel? c.id = some (after updates c) := by
  have initial := isDistinct_ofChannels distinct
  rw [← id_after updates c]
  refine channel?_of_mem (isDistinct_run initial updates) ?_
  rw [channels_run initial, channels_ofChannels]
  exact List.mem_map_of_mem hc

end OfChannels

end Switchboard.Registry
