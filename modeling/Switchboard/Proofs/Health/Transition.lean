import Switchboard.Proofs.Health.Footprint
import Switchboard.Proofs.Health.Store

/-!
# What becomes of a channel that is probed

The monitor deals with the outcome of a probe by changing the entry of the channel in the
store. With the registry as the store, a verdict makes of an entry what `Verdict.amend`
says, a single test what `Monitor.amendTest` says, and both change the entry as it is in the
registry when the probe is over (`Monitor.visit_snd`, `Monitor.test_snd`): whatever happened
to it in the meantime is not looked at.
-/

namespace Switchboard.Health

open Registry (KeepsId)

variable {ω α β : Type}

/-! ## Changes of one entry -/

/-- The session with a change of the entry with an id. -/
def change (id : Nat) (f : Registry.Entry → Registry.Entry) (s : Session (Registry × ω)) :
    Session (Registry × ω) :=
  { s with world := (s.world.1.change id f, s.world.2) }

/-- A computation changes the entry with an id, and fails only if there is none. -/
def Changes (id : Nat) (f : Registry.Entry → Registry.Entry)
    (a : ExceptT Failure (StateM (Session (Registry × ω))) α) : Prop :=
  ∀ s, (a.run s).2 = change id f s ∧ ∀ e, (a.run s).1 = .error e → id ∉ s.world.1.ids

/-- What follows a computation begins where that ended. -/
theorem run_bind_apply (a : ExceptT Failure (StateM (Session (Registry × ω))) α)
    (b : α → ExceptT Failure (StateM (Session (Registry × ω))) β) (s : Session (Registry × ω)) :
    (a >>= b).run s = ExceptT.bindCont b (a.run s).1 (a.run s).2 := rfl

namespace Changes

variable {id : Nat} {f g : Registry.Entry → Registry.Entry}
  {a : ExceptT Failure (StateM (Session (Registry × ω))) α}

theorem pure (x : α) :
    Changes id (fun e => e) (pure x : ExceptT Failure (StateM (Session (Registry × ω))) α) := by
  intro s
  rw [change, Registry.change_self]
  exact ⟨rfl, fun e h => by cases h⟩

theorem bind {b : α → ExceptT Failure (StateM (Session (Registry × ω))) β} (ha : Changes id f a)
    (hf : KeepsId f) (hb : ∀ x, Changes id g (b x)) : Changes id (fun e => g (f e)) (a >>= b) := by
  intro s
  obtain ⟨hw, he⟩ := ha s
  rw [run_bind_apply, hw]
  cases ho : (a.run s).1 with
  | ok x =>
    obtain ⟨hw', he'⟩ := hb x (change id f s)
    simp only [change, Registry.change_change hf, Registry.ids_change hf] at hw' he'
    exact ⟨hw', he'⟩
  | error e =>
    have unknown : id ∉ s.world.1.ids := he e ho
    refine ⟨?_, fun _ _ => unknown⟩
    rw [change, change, Registry.change_of_not_mem unknown, Registry.change_of_not_mem unknown]
    rfl

/-- An update of the registry changes the entry. -/
theorem store {u : Registry × ω → Except String Unit × (Registry × ω)}
    (hu : ∀ r w, u (r, w) = r.settle w (r.modify id f)) : Changes id f (Monitor.store u) := by
  intro s
  obtain ⟨mint, r, w⟩ := s
  refine ⟨?_, fun e h => ?_⟩
  · change (⟨mint, (u (r, w)).2⟩ : Session (Registry × ω)) = _
    rw [hu, Registry.settle_modify]
    rfl
  · change (u (r, w)).1.mapError Failure.store = .error e at h
    rw [hu] at h
    cases ho : (r.settle w (r.modify id f)).1 with
    | ok x =>
      rw [ho] at h
      cases h
    | error message => exact Registry.not_mem_ids_of_settle ho

end Changes

/-! ## What is made of an entry -/

/-- What a verdict does to the status of an entry. -/
def StatusChange.amend (change : StatusChange) (e : Registry.Entry) : Registry.Entry :=
  match change with
  | disable reason => e.withStatus .autoDisabled reason
  | enable => e.withStatus .enabled "channel test succeeded"
  | keep => e

/-- What a verdict does to the response time of an entry. -/
def Verdict.amendTime (v : Verdict) (elapsed : Nat) (e : Registry.Entry) : Registry.Entry :=
  if v.keepsLatency then { e with responseTime := some elapsed } else e

/-- What a verdict makes of an entry. -/
def Verdict.amend (v : Verdict) (elapsed : Nat) (e : Registry.Entry) : Registry.Entry :=
  v.amendTime elapsed (v.change.amend e)

namespace StatusChange

variable {change : StatusChange} {e : Registry.Entry}

theorem keepsId_amend (change : StatusChange) : KeepsId change.amend := by
  intro e
  cases change <;> rfl

/-- Of the channel of an entry only the status changes. -/
theorem channel_amend (change : StatusChange) (e : Registry.Entry) :
    (change.amend e).channel = { e.channel with status := (change.amend e).channel.status } := by
  cases change <;> rfl

theorem of_status_amend_ne (h : (change.amend e).channel.status ≠ e.channel.status) :
    (∃ reason, change = disable reason) ∨ change = enable := by
  cases change with
  | disable reason => exact .inl ⟨reason, rfl⟩
  | enable => exact .inr rfl
  | keep => exact absurd rfl h

theorem status_amend_eq_autoDisabled_iff (h : e.channel.status = .enabled) :
    (change.amend e).channel.status = .autoDisabled ↔ ∃ reason, change = disable reason := by
  cases change <;> simp [amend, Registry.Entry.withStatus, h]

theorem status_amend_eq_enabled_iff (h : e.channel.status = .autoDisabled) :
    (change.amend e).channel.status = .enabled ↔ change = enable := by
  cases change <;> simp [amend, Registry.Entry.withStatus, h]

end StatusChange

namespace Verdict

theorem keepsId_amend (v : Verdict) (elapsed : Nat) : KeepsId (v.amend elapsed) := by
  intro e
  unfold amend amendTime
  split <;> exact v.change.keepsId_amend e

/-- Keeping the latency leaves the channel alone. -/
theorem channel_amend (v : Verdict) (elapsed : Nat) (e : Registry.Entry) :
    (v.amend elapsed e).channel = (v.change.amend e).channel := by
  unfold amend amendTime
  split <;> rfl

theorem responseTime_amend (v : Verdict) (elapsed : Nat) (e : Registry.Entry) :
    (v.amend elapsed e).responseTime =
      if v.keepsLatency = true then some elapsed else e.responseTime := by
  unfold amend amendTime StatusChange.amend
  split
  · rfl
  · cases v.change <;> rfl

end Verdict

namespace Monitor

/-- What a single test of a channel makes of its entry. -/
def amendTest (m : Monitor (Registry × ω)) (c : Channel) (outcome : Except Failure Success)
    (elapsed : Nat) (e : Registry.Entry) : Registry.Entry :=
  match outcome with
  | .ok _ => { e with responseTime := some elapsed }
  | .error f =>
    if c.isEnabled && m.policy.disables f then e.withStatus .autoDisabled f.message else e

theorem keepsId_amendTest (m : Monitor (Registry × ω)) (c : Channel)
    (outcome : Except Failure Success) (elapsed : Nat) :
    KeepsId (m.amendTest c outcome elapsed) := by
  intro e
  unfold amendTest
  split
  · rfl
  · split <;> rfl

variable {m : Monitor (Registry × ω)} (hs : m.surroundings.store = Registry.store)

include hs

theorem changes_setStatus (id : Nat) (status : ChannelStatus) (reason : String) :
    Changes id (.withStatus status reason)
      (store (m.surroundings.store.setStatus id status reason)) := by
  rw [hs]
  exact .store fun r w => rfl

theorem changes_setResponseTime (id time : Nat) :
    Changes id (fun e => { e with responseTime := some time })
      (store (m.surroundings.store.setResponseTime id time)) := by
  rw [hs]
  exact .store fun r w => rfl

theorem changes_apply (c : Channel) (v : Verdict) (elapsed : Nat) :
    Changes c.id (v.amend elapsed) (m.apply c v elapsed) := by
  have status : Changes c.id v.change.amend (match v.change with
      | .disable reason => store (m.surroundings.store.setStatus c.id .autoDisabled reason)
      | .enable => store (m.surroundings.store.setStatus c.id .enabled "channel test succeeded")
      | .keep => pure () : ExceptT Failure (StateM (Session (Registry × ω))) Unit) := by
    cases v.change with
    | disable reason => exact changes_setStatus hs _ _ _
    | enable => exact changes_setStatus hs _ _ _
    | keep => exact .pure ()
  have time : Changes c.id (v.amendTime elapsed)
      (if v.keepsLatency then store (m.surroundings.store.setResponseTime c.id elapsed)
        else pure () : ExceptT Failure (StateM (Session (Registry × ω))) Unit) := by
    unfold Verdict.amendTime
    cases v.keepsLatency with
    | true => exact changes_setResponseTime hs _ _
    | false => exact .pure ()
  have both : Changes c.id (v.amend elapsed) _ :=
    status.bind v.change.keepsId_amend fun _ => time
  unfold apply
  cases hv : v.change <;> rw [hv] at both <;> exact both

theorem changes_applyTest (id : Nat) (c : Channel) (outcome : Except Failure Success)
    (elapsed : Nat) :
    Changes id (m.amendTest c outcome elapsed) (m.applyTest id c outcome elapsed) := by
  cases outcome with
  | ok success =>
    exact (changes_setResponseTime hs id elapsed).bind (fun _ => rfl) fun _ => .pure _
  | error f =>
    unfold applyTest amendTest
    dsimp only
    split
    · exact (changes_setStatus hs id _ _).bind (fun _ => rfl) fun _ => .pure _
    · exact .pure _

/-! ## Visits and tests -/

variable [Tokenizer]

omit hs in
/-- The session in which a sweep probes, after the pause before the probe. -/
def rested (m : Monitor (Registry × ω)) (s : Session (Registry × ω)) : Session (Registry × ω) :=
  { s with world := m.surroundings.sleep m.health.requestInterval s.world }

omit hs in
/-- The verdict on what a probe of a channel gave. -/
def verdict (m : Monitor (Registry × ω)) (c : Channel)
    (probed : Except Failure Success × Nat) : Verdict :=
  .of m.policy c.status (failure? probed.1) probed.2

/-- A visit changes the entry of the channel as it is when the probe is over. -/
theorem visit_snd (c : Channel) (s : Session (Registry × ω)) :
    (m.visit c s).2 =
      let probed := m.timedProbe c none (m.rested s)
      change c.id ((m.verdict c probed.1).amend probed.1.2) probed.2 :=
  (changes_apply hs c _ _ _).1

/-- A single test changes the entry of the channel as it is when the probe is over. -/
theorem test_snd (id : Nat) (asked : Option String) (s : Session (Registry × ω)) :
    ((m.test id asked).run s).2 = match s.world.1.channel? id with
      | none => s
      | some c =>
        let probed := m.timedProbe c asked s
        change id (m.amendTest c probed.1.1 probed.1.2) probed.2 := by
  have hread : (store (m.surroundings.store.channel id)).run s =
      (.ok (s.world.1.channel? id), s) := by
    rw [hs]
    rfl
  unfold test
  rw [run_bind_apply, hread]
  cases s.world.1.channel? id with
  | none => rfl
  | some c => exact (changes_applyTest hs id c _ _ _).1

end Monitor

end Switchboard.Health
