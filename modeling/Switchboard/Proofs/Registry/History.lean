import Mathlib.Data.List.Induction
import Switchboard.Proofs.Registry.Updates

/-!
# What the registry shows

The registry is built from the channels of the configuration and then told what becomes of
them. What it shows of a channel later is what it was told last : its entry is a function of the
configured channel and of the updates for it (`entries_run`), the response time and the status
of the last ones, and the reason of the last status if that disabled the channel automatically.
A channel that the configuration disables has no reason.

An update is answered with an error if there is no channel with its id, and otherwise succeeds
(`Update.perform_eq`). As the ids never change, the updates that succeed are those for the
configured channels (`succeeding_eq_filter`), so that the last word on an id is the last one that
succeeded. `run_ofChannels_records` puts both together : what one more update may change after
any number of them, and what the registry shows by then.
-/

namespace Switchboard.Registry

/-! ## Answers -/

/-- The answer to an update : the registry after it, or an error. -/
def Update.perform (r : Registry) : Update → Except UnknownChannel Registry
  | .status id given reason => r.setStatus id given reason
  | .responseTime id time => r.setResponseTime id time

theorem Update.perform_eq (u : Update) (r : Registry) :
    u.perform r = if u.id ∈ r.ids then .ok (r.update u) else .error ⟨u.id⟩ := by
  have modified : u.perform r = r.modify u.id u.edit := by cases u <;> rfl
  rw [modified, update_eq, modify, change]
  split
  case h_1 entries found =>
    have known : u.id ∈ r.ids := by
      by_contra unknown
      rw [modifyFirst_eq_none_iff.mpr unknown] at found
      cases found
    rw [if_pos known, found]
    rfl
  case h_2 missing =>
    have unknown : u.id ∉ r.ids := modifyFirst_eq_none_iff.mp missing
    rw [if_neg unknown]

/-- The updates that succeed, of those that the registry is told one after the other. -/
def succeeding (r : Registry) : List Update → List Update
  | [] => []
  | u :: rest =>
    match u.perform r with
    | .ok changed => u :: succeeding changed rest
    | .error _ => succeeding r rest

theorem ids_update (r : Registry) (u : Update) : (r.update u).ids = r.ids := by
  rw [update_eq, ids_change u.keepsId_edit]

theorem succeeding_eq_filter (r : Registry) (updates : List Update) :
    r.succeeding updates = updates.filter fun u => u.id ∈ r.ids := by
  induction updates generalizing r with
  | nil => rfl
  | cons u rest ih =>
    rw [succeeding, u.perform_eq, List.filter_cons]
    by_cases known : u.id ∈ r.ids
    · simp only [known, if_true, decide_true, ih, ids_update]
    · simp only [known, if_false, decide_false, ih, Bool.false_eq_true]

/-! ## One update -/

/-- What an update for an entry leaves as it is : all but the status and the reason, or all but
the response time. -/
def Update.Spares : Update → Entry → Entry → Prop
  | .status _ given _, e, e' => e' =
      { e with channel := { e.channel with status := given }, disabledReason := e'.disabledReason }
  | .responseTime _ time, e, e' => e' = { e with responseTime := some time }

/-- The update is answered with an error, and nothing changes. -/
def Update.Fails (u : Update) (r : Registry) : Prop :=
  u.perform r = .error ⟨u.id⟩ ∧ r.update u = r

/-- The update succeeds, and changes the one entry that has its id. -/
def Update.Succeeds (u : Update) (r : Registry) : Prop :=
  ∃ front e e' back, r.entries = front ++ e :: back ∧ e.channel.id = u.id ∧
    (∀ other ∈ front ++ back, other.channel.id ≠ u.id) ∧ u.Spares e e' ∧
    u.perform r = .ok (r.update u) ∧ (r.update u).entries = front ++ e' :: back

theorem Update.spares_edit (u : Update) (e : Entry) : u.Spares e (u.edit e) := by
  cases u <;> rfl

theorem Update.fails_of_unknown {u : Update} {r : Registry} (unknown : u.id ∉ r.ids) :
    u.Fails r := by
  refine ⟨?_, ?_⟩
  · rw [perform_eq, if_neg unknown]
  · rw [update_eq, change_of_not_mem unknown]

theorem Update.succeeds_of_known {u : Update} {r : Registry} (distinct : r.IsDistinct)
    (known : u.id ∈ r.ids) : u.Succeeds r := by
  obtain ⟨e, he, hid⟩ := List.mem_map.mp known
  obtain ⟨front, back, split⟩ := List.append_of_mem he
  have others : ∀ other ∈ front ++ back, other.channel.id ≠ u.id := by
    have nodup := distinct
    rw [IsDistinct, ids, split, List.map_append, List.map_cons, List.nodup_middle,
      ← List.map_append] at nodup
    intro other ho same
    exact (List.nodup_cons.mp nodup).1 (List.mem_map.mpr ⟨other, ho, same.trans hid.symm⟩)
  have still : ∀ other ∈ front ++ back, u.onEntry other = other := fun other ho =>
    if_neg (others other ho)
  refine ⟨front, e, u.edit e, back, split, hid, others, u.spares_edit e, ?_, ?_⟩
  · rw [perform_eq, if_pos known]
  · rw [entries_update distinct, split, List.map_append, List.map_cons,
      List.map_congr_left fun x hx => still x (List.mem_append_left _ hx),
      List.map_congr_left fun x hx => still x (List.mem_append_right _ hx),
      List.map_id', List.map_id', onEntry, if_pos hid]

/-! ## The last word -/

/-- The status that an update gives to the channel with an id, and the reason. -/
def Update.given? (id : Nat) : Update → Option (ChannelStatus × String)
  | .status i given reason => if i = id then some (given, reason) else none
  | .responseTime _ _ => none

/-- The response time that an update gives to the channel with an id. -/
def Update.measured? (id : Nat) : Update → Option Nat
  | .status _ _ _ => none
  | .responseTime i time => if i = id then some time else none

section LastOf

variable {α : Type} {f : Update → Option α}

/-- What updates give last. -/
def lastOf (f : Update → Option α) (updates : List Update) : Option α :=
  (updates.filterMap f).getLast?

theorem lastOf_concat (updates : List Update) (u : Update) :
    lastOf f (updates ++ [u]) = (f u).or (lastOf f updates) := by
  rw [lastOf, List.filterMap_append, List.getLast?_append, lastOf]
  cases h : f u <;> simp [h]

/-- What updates give last to the channel with an id, if only those count that succeed. -/
theorem lastOf_succeeding {id : Nat} (own : ∀ u : Update, u.id ≠ id → f u = none) (r : Registry)
    (updates : List Update) :
    lastOf f (r.succeeding updates) = if id ∈ r.ids then lastOf f updates else none := by
  rw [succeeding_eq_filter, lastOf, List.filterMap_filter]
  split
  case isTrue known =>
    have same : ∀ u : Update, (if (decide (u.id ∈ r.ids)) = true then f u else none) = f u := by
      intro u
      by_cases h : u.id = id
      · rw [h, decide_eq_true known, if_pos rfl]
      · rw [own u h, ite_self]
    simp only [same, lastOf]
  case isFalse unknown =>
    have nothing : ∀ u : Update, (if (decide (u.id ∈ r.ids)) = true then f u else none) = none := by
      intro u
      by_cases h : u.id = id
      · rw [h, decide_eq_false unknown]
        rfl
      · rw [own u h, ite_self]
    simp only [nothing, List.filterMap_none, List.getLast?_nil]

end LastOf

theorem Update.given?_of_ne {id : Nat} (u : Update) (h : u.id ≠ id) : u.given? id = none := by
  cases u with
  | status i given reason => exact if_neg h
  | responseTime i time => rfl

theorem Update.measured?_of_ne {id : Nat} (u : Update) (h : u.id ≠ id) :
    u.measured? id = none := by
  cases u with
  | status i given reason => rfl
  | responseTime i time => exact if_neg h

/-! ## What is shown -/

/-- A configured channel with the status that it was given last. -/
def shown (updates : List Update) (c : Channel) : Channel :=
  { c with status := ((lastOf (Update.given? c.id) updates).map (·.1)).getD c.status }

/-- The entry of a configured channel after updates. -/
def recorded (updates : List Update) (c : Channel) : Entry where
  channel := shown updates c
  responseTime := lastOf (Update.measured? c.id) updates
  disabledReason := (lastOf (Update.given? c.id) updates).bind fun last =>
    if last.1 = .autoDisabled then some last.2 else none

theorem recorded_concat (updates : List Update) (u : Update) (c : Channel) :
    recorded (updates ++ [u]) c = u.onEntry (recorded updates c) := by
  have id : (recorded updates c).channel.id = c.id := rfl
  rw [Update.onEntry, id, recorded, shown, lastOf_concat, lastOf_concat]
  by_cases h : c.id = u.id
  · rw [if_pos h]
    cases u with
    | status i given reason =>
      have given? : Update.given? c.id (.status i given reason) = some (given, reason) :=
        if_pos h.symm
      rw [given?]
      rfl
    | responseTime i time =>
      have measured? : Update.measured? c.id (.responseTime i time) = some time := if_pos h.symm
      rw [measured?]
      rfl
  · rw [if_neg h, u.given?_of_ne (Ne.symm h), u.measured?_of_ne (Ne.symm h)]
    rfl

section OfChannels

variable {channels : List Channel}

theorem ids_ofChannels (channels : List Channel) :
    (ofChannels channels).ids = channels.map (·.id) := by
  rw [← map_id_channels, channels_ofChannels]

theorem lastOf_succeeding_of_mem {α : Type} {f : Update → Option α} {c : Channel}
    (own : ∀ u : Update, u.id ≠ c.id → f u = none) (hc : c ∈ channels) (updates : List Update) :
    lastOf f ((ofChannels channels).succeeding updates) = lastOf f updates := by
  have known : c.id ∈ (ofChannels channels).ids := by
    rw [ids_ofChannels]
    exact List.mem_map_of_mem hc
  rw [lastOf_succeeding own, if_pos known]

variable (distinct : (channels.map (·.id)).Nodup)

include distinct

/-- What the registry shows is decided by the configuration and by the updates. -/
theorem entries_run (updates : List Update) :
    ((ofChannels channels).run updates).entries = channels.map (recorded updates) := by
  induction updates using List.reverseRecOn with
  | nil => rfl
  | append_singleton updates u ih =>
    have last : (ofChannels channels).run (updates ++ [u]) =
        ((ofChannels channels).run updates).update u := List.foldl_concat ..
    rw [last, entries_update (isDistinct_run (isDistinct_ofChannels distinct) updates), ih,
      List.map_map]
    exact List.map_congr_left fun c _ => (recorded_concat updates u c).symm

/-- Under an id the registry has the entry of a configured channel, or nothing. -/
theorem entry?_run (updates : List Update) (id : Nat) :
    (∃ c ∈ channels, c.id = id ∧
      entry? ((ofChannels channels).run updates) id = some (recorded updates c)) ∨
    id ∉ (ofChannels channels).ids ∧ entry? ((ofChannels channels).run updates) id = none := by
  have found : entry? ((ofChannels channels).run updates) id =
      (channels.find? fun c => c.id == id).map (recorded updates) := by
    unfold entry?
    rw [entries_run distinct, List.find?_map]
    rfl
  cases h : channels.find? fun c => c.id == id with
  | some c =>
    refine .inl ⟨c, List.mem_of_find?_eq_some h, by simpa using List.find?_some h, ?_⟩
    rw [found, h, Option.map_some]
  | none =>
    refine .inr ⟨?_, by rw [found, h, Option.map_none]⟩
    rw [ids_ofChannels]
    intro known
    obtain ⟨c, hc, same⟩ := List.mem_map.mp known
    exact absurd (beq_iff_eq.mpr same) (List.find?_eq_none.mp h c hc)

/-- A reason is shown if the last status was given for it, and disabled automatically. -/
theorem disabledReason?_run (updates : List Update) (id : Nat) (reason : String) :
    ((ofChannels channels).run updates).disabledReason? id = some reason ↔
      lastOf (Update.given? id) ((ofChannels channels).succeeding updates) =
        some (.autoDisabled, reason) := by
  rw [disabledReason?]
  obtain ⟨c, hc, rfl, found⟩ | ⟨unknown, missing⟩ := entry?_run distinct updates id
  · rw [found, lastOf_succeeding_of_mem Update.given?_of_ne hc]
    show (recorded updates c).disabledReason = some reason ↔ _
    rw [recorded]
    constructor
    · intro h
      obtain ⟨⟨given, text⟩, last, kept⟩ := Option.bind_eq_some_iff.mp h
      split_ifs at kept with auto
      obtain rfl : given = .autoDisabled := auto
      obtain rfl : text = reason := Option.some.inj kept
      exact last
    · intro last
      rw [last]
      rfl
  · rw [missing, lastOf_succeeding Update.given?_of_ne, if_neg unknown]
    simp

theorem responseTime?_run (updates : List Update) (id : Nat) :
    ((ofChannels channels).run updates).responseTime? id =
      lastOf (Update.measured? id) ((ofChannels channels).succeeding updates) := by
  rw [responseTime?]
  obtain ⟨c, hc, rfl, found⟩ | ⟨unknown, missing⟩ := entry?_run distinct updates id
  · rw [found, lastOf_succeeding_of_mem Update.measured?_of_ne hc]
    rfl
  · rw [missing, lastOf_succeeding Update.measured?_of_ne, if_neg unknown]
    rfl

theorem channels_run_succeeding (updates : List Update) :
    ((ofChannels channels).run updates).channels =
      channels.map (shown ((ofChannels channels).succeeding updates)) := by
  rw [Registry.channels, entries_run distinct, List.map_map]
  refine List.map_congr_left fun c hc => ?_
  rw [shown, lastOf_succeeding_of_mem Update.given?_of_ne hc]
  rfl

/-- A reason is shown of no channel but one that is disabled automatically. -/
theorem status_of_disabledReason? {updates : List Update} {id : Nat} {reason : String}
    (h : ((ofChannels channels).run updates).disabledReason? id = some reason) :
    ∃ c, ((ofChannels channels).run updates).channel? id = some c ∧ c.status = .autoDisabled := by
  have last := (disabledReason?_run distinct updates id reason).mp h
  obtain ⟨c, hc, rfl, found⟩ | ⟨-, missing⟩ := entry?_run distinct updates id
  · rw [lastOf_succeeding_of_mem Update.given?_of_ne hc] at last
    refine ⟨shown updates c, ?_, ?_⟩
    · rw [channel?, found]
      rfl
    · rw [shown, last]
      rfl
  · rw [disabledReason?, missing] at h
    cases h

end OfChannels

/-- After any number of updates of a registry with distinct ids, one more fails without a change
if there is no channel with its id, and else changes what it is for in one entry. The channels are
the configured ones in their order, with the status that was given last of those updates that
succeeded ; the reason and the response time are the last ones too, the reason only if the
channel was disabled automatically for it. -/
theorem run_ofChannels_records {channels : List Channel} (distinct : (channels.map (·.id)).Nodup)
    (updates : List Update) :
    let r := (ofChannels channels).run updates
    let done := (ofChannels channels).succeeding updates
    (∀ u : Update, if u.id ∈ channels.map (·.id) then u.Succeeds r else u.Fails r) ∧
      r.channels = channels.map (shown done) ∧
      ∀ id,
        (∀ reason, r.disabledReason? id = some reason ↔
          lastOf (Update.given? id) done = some (.autoDisabled, reason)) ∧
        (∀ reason, r.disabledReason? id = some reason →
          ∃ c, r.channel? id = some c ∧ c.status = .autoDisabled) ∧
        r.responseTime? id = lastOf (Update.measured? id) done := by
  intro r done
  have ids : r.ids = channels.map (·.id) := by
    rw [← map_id_channels, channels_run_succeeding distinct, List.map_map]
    rfl
  refine ⟨fun u => ?_, channels_run_succeeding distinct updates, fun id =>
    ⟨disabledReason?_run distinct updates id, fun reason => status_of_disabledReason? distinct,
      responseTime?_run distinct updates id⟩⟩
  rw [← ids]
  split
  case isTrue known =>
    exact Update.succeeds_of_known (isDistinct_run (isDistinct_ofChannels distinct) updates) known
  case isFalse unknown => exact Update.fails_of_unknown unknown

/-- Two channels, the second of which the configuration disables. -/
def halfDisabled : List Channel :=
  [⟨1, "own", .custom, "", some "http://localhost", .enabled, 0, none, []⟩,
    ⟨2, "broken", .openAI, "", none, .autoDisabled, 0, none, []⟩]

/-- The first channel is disabled, enabled and disabled again, and a third one is not there. -/
def disabledTwice : List Update :=
  [.status 1 .autoDisabled "key revoked", .responseTime 1 420, .status 1 .enabled "recovered",
    .status 3 .autoDisabled "unknown", .status 1 .autoDisabled "slow"]

/-- The last reason is shown, and none for the channel that the configuration disables. -/
theorem run_disabledTwice :
    (halfDisabled.map (·.id)).Nodup ∧
      let r := (ofChannels halfDisabled).run disabledTwice
      r.disabledReason? 1 = some "slow" ∧ r.responseTime? 1 = some 420 ∧
        r.disabledReason? 2 = none ∧ (Update.responseTime 3 7).Fails r := by
  have distinct : (halfDisabled.map (·.id)).Nodup := by decide
  obtain ⟨updates, -, shown⟩ := run_ofChannels_records distinct disabledTwice
  refine ⟨distinct, (shown 1).1 "slow" |>.mpr (by decide), (shown 1).2.2.trans (by decide), ?_, ?_⟩
  · refine Option.eq_none_iff_forall_ne_some.mpr fun reason h => ?_
    have last := (shown 2).1 reason |>.mp h
    have never : lastOf (Update.given? 2) ((ofChannels halfDisabled).succeeding disabledTwice) =
        none := by decide
    rw [never] at last
    cases last
  · have failed := updates (.responseTime 3 7)
    rwa [if_neg (by decide)] at failed

end Switchboard.Registry
