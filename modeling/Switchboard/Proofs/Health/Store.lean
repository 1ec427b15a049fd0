import Mathlib.Data.List.Nodup
import Switchboard.Health.Surroundings
import Switchboard.Registry

/-!
# The registry as the store of the monitor

The store that the gateway runs with is its registry, here the first part of the world
(`Registry.store`). A change of an entry that leaves its id alone is seen by who looks up
that id and by nobody else (`Registry.entry?_change`), and the channels keep their order
(`Registry.ids_change`).
-/

namespace Switchboard.Registry

/-- The ids of the channels, in order. -/
def ids (r : Registry) : List Nat := r.entries.map fun e => e.channel.id

/-- No two channels have the same id. -/
def IsDistinct (r : Registry) : Prop := r.ids.Nodup

instance (r : Registry) : Decidable r.IsDistinct := inferInstanceAs (Decidable r.ids.Nodup)

theorem map_id_channels (r : Registry) : r.channels.map (·.id) = r.ids := by
  simp only [channels, ids, List.map_map]
  rfl

/-- In a registry with distinct ids, each channel is found by its id. -/
theorem channel?_of_mem {r : Registry} (h : r.IsDistinct) {c : Channel} (hc : c ∈ r.channels) :
    r.channel? c.id = some c := by
  obtain ⟨e, he, rfl⟩ := List.mem_map.mp hc
  have hsome : (r.entry? e.channel.id).isSome := by
    unfold entry?
    rw [List.find?_isSome]
    exact ⟨e, he, beq_self_eq_true _⟩
  obtain ⟨found, hf⟩ := Option.isSome_iff_exists.mp hsome
  have hid : found.channel.id = e.channel.id := by simpa using List.find?_some hf
  have heq : found = e := List.inj_on_of_nodup_map h (List.mem_of_find?_eq_some hf) he hid
  rw [channel?, hf, heq]
  rfl

/-- A channel that is found has an entry. -/
theorem exists_entry {r : Registry} {id : Nat} {c : Channel} (h : r.channel? id = some c) :
    ∃ e, r.entry? id = some e ∧ e.channel = c ∧ c.id = id := by
  obtain ⟨e, he, rfl⟩ := Option.map_eq_some_iff.mp h
  exact ⟨e, he, rfl, by simpa using List.find?_some he⟩

/-! ## Changes of an entry -/

/-- The registry with a change of the entry with an id, if there is one. -/
def change (r : Registry) (id : Nat) (f : Entry → Entry) : Registry :=
  ⟨(modifyFirst id f r.entries).getD r.entries⟩

theorem getD_modifyFirst_cons (id : Nat) (f : Entry → Entry) (e : Entry) (rest : List Entry) :
    (modifyFirst id f (e :: rest)).getD (e :: rest) =
      if e.channel.id = id then f e :: rest
      else e :: (modifyFirst id f rest).getD rest := by
  rw [modifyFirst]
  split
  · rfl
  · cases modifyFirst id f rest <;> rfl

@[simp] theorem change_self (r : Registry) (id : Nat) : r.change id (fun e => e) = r := by
  obtain ⟨entries⟩ := r
  rw [change, mk.injEq]
  induction entries with
  | nil => rfl
  | cons e rest ih => rw [getD_modifyFirst_cons, ih, ite_self]

theorem modifyFirst_eq_none_iff {id : Nat} {f : Entry → Entry} {l : List Entry} :
    modifyFirst id f l = none ↔ id ∉ l.map fun e => e.channel.id := by
  induction l with
  | nil => simp [modifyFirst]
  | cons e rest ih =>
    rw [modifyFirst]
    by_cases he : e.channel.id = id
    · simp [he]
    · simp [he, ih, Ne.symm he]

/-- Without a channel with the id there is nothing to change. -/
theorem change_of_not_mem {r : Registry} {id : Nat} (h : id ∉ r.ids) (f : Entry → Entry) :
    r.change id f = r := by
  rw [change, modifyFirst_eq_none_iff.mpr h]
  rfl

/-- A change leaves the id of an entry alone. -/
def KeepsId (f : Entry → Entry) : Prop := ∀ e, (f e).channel.id = e.channel.id

theorem keepsId_withStatus (status : ChannelStatus) (reason : String) :
    KeepsId (Entry.withStatus status reason) := fun _ => rfl

section Change

variable {f : Entry → Entry} (hf : KeepsId f)

include hf

/-- Only who looks up the id sees a change of its entry. -/
theorem entry?_change (r : Registry) (id i : Nat) :
    entry? (r.change id f) i = if i = id then (r.entry? i).map f else r.entry? i := by
  obtain ⟨entries⟩ := r
  unfold entry? change
  induction entries with
  | nil => simp [modifyFirst]
  | cons e rest ih =>
    simp only [getD_modifyFirst_cons]
    by_cases he : e.channel.id = id
    · by_cases hi : i = id
      · simp [he, hi, hf e]
      · have hne : (id == i) = false := beq_eq_false_iff_ne.mpr fun h => hi h.symm
        simp [he, hi, hf e, hne]
    · rw [if_neg he, List.find?_cons, List.find?_cons, ih]
      split
      · rename_i hi
        have hne : i ≠ id := fun h => he ((beq_iff_eq.mp hi).trans h)
        rw [if_neg hne]
      · rfl

theorem ids_change (r : Registry) (id : Nat) : (r.change id f).ids = r.ids := by
  obtain ⟨entries⟩ := r
  simp only [change, ids]
  induction entries with
  | nil => rfl
  | cons e rest ih =>
    rw [getD_modifyFirst_cons]
    split
    · simp [hf e]
    · simp [ih]

/-- Two changes of one entry are one change. -/
theorem change_change (r : Registry) (id : Nat) (g : Entry → Entry) :
    (r.change id f).change id g = r.change id fun e => g (f e) := by
  obtain ⟨entries⟩ := r
  simp only [change, mk.injEq]
  induction entries with
  | nil => rfl
  | cons e rest ih =>
    rw [getD_modifyFirst_cons, getD_modifyFirst_cons]
    by_cases he : e.channel.id = id
    · rw [if_pos he, if_pos he, getD_modifyFirst_cons, if_pos ((hf e).trans he)]
    · rw [if_neg he, if_neg he, getD_modifyFirst_cons, if_neg he, ih]

end Change

/-! ## The store -/

variable {ω : Type}

/-- What an update comes to; the registry is left alone if it has no such channel. -/
def settle (r : Registry) (w : ω) :
    Except UnknownChannel Registry → Except String Unit × (Registry × ω)
  | .ok changed => (.ok (), changed, w)
  | .error e => (.error e.message, r, w)

/-- The registry as the store of channels. -/
def store : Health.Store (Registry × ω) where
  channel id := fun (r, w) => (.ok (r.channel? id), r, w)
  channels := fun (r, w) => (.ok r.channels, r, w)
  setStatus id status reason := fun (r, w) => r.settle w (r.setStatus id status reason)
  setResponseTime id time := fun (r, w) => r.settle w (r.setResponseTime id time)

theorem settle_modify (r : Registry) (w : ω) (id : Nat) (f : Entry → Entry) :
    (r.settle w (r.modify id f)).2 = (r.change id f, w) := by
  rw [modify, change]
  cases modifyFirst id f r.entries <;> rfl

/-- An update fails only if there is no channel with the id. -/
theorem not_mem_ids_of_settle {r : Registry} {w : ω} {id : Nat} {f : Entry → Entry} {e : String}
    (h : (r.settle w (r.modify id f)).1 = .error e) : id ∉ r.ids := by
  rw [modify] at h
  cases hm : modifyFirst id f r.entries with
  | none => exact modifyFirst_eq_none_iff.mp hm
  | some entries =>
    rw [hm] at h
    cases h

end Switchboard.Registry
