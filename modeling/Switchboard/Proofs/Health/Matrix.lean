import Switchboard.Proofs.Health.Transition

/-!
# The decision matrix

What a probe may make of the entry of its channel (`Probing.Explains`) is read off the
status of the channel, how the probe came out and how long it took. Both ways of probing
keep to it, the visit of a sweep (`Monitor.explains_visit`) and the single test
(`Monitor.explains_test`), which looks at errors only.
-/

namespace Switchboard.Health

open Registry (KeepsId)

variable {ω : Type}

/-! ## Probes and what they may change -/

/-- A probe of a channel: whether it was part of a sweep, how it came out and how many
nanoseconds it took, with the registry before it and after its outcome was dealt with. -/
structure Probing where
  swept : Bool
  id : Nat
  outcome : Except Failure Success
  elapsed : Nat
  before : Registry
  after : Registry

namespace Probing

/-- The probe took longer than a threshold that is set. -/
def IsSlow (h : HealthSettings) (p : Probing) : Prop :=
  h.disableThreshold ≠ 0 ∧ h.disableThreshold < p.elapsed

/-- The probe succeeded. -/
def Succeeded (p : Probing) : Prop := ∃ s, p.outcome = .ok s

/-- Errors may disable a channel, and the provider's own answer is one that does. -/
def IsRejected (h : HealthSettings) (p : Probing) : Prop :=
  h.autoDisable = true ∧ ∃ e, p.outcome = .error (.probe (.provider e)) ∧ isDisabling e = true

/-- The latency is kept: of a probe that succeeded, and in a sweep was not slow. -/
def IsTimed (h : HealthSettings) (p : Probing) : Prop :=
  p.Succeeded ∧ (p.swept = true → ¬ p.IsSlow h)

/-- What a probe may make of the entry of its channel. -/
structure Explains (h : HealthSettings) (p : Probing) (e e' : Registry.Entry) : Prop where
  /-- Of the channel itself, only the status changes. -/
  channel : e'.channel = { e.channel with status := e'.channel.status }
  /-- A status changes only from enabled to disabled automatically, and back. -/
  changed : e'.channel.status ≠ e.channel.status →
    e.channel.status = .enabled ∧ e'.channel.status = .autoDisabled ∨
      e.channel.status = .autoDisabled ∧ e'.channel.status = .enabled
  disabled : e.channel.status = .enabled →
    (e'.channel.status = .autoDisabled ↔ p.swept = true ∧ p.IsSlow h ∨ p.IsRejected h)
  enabled : e.channel.status = .autoDisabled →
    (e'.channel.status = .enabled ↔ p.swept = true ∧ p.Succeeded ∧ ¬ p.IsSlow h)
  timed : p.IsTimed h → e'.responseTime = some p.elapsed
  untimed : ¬ p.IsTimed h → e'.responseTime = e.responseTime

/-- A probe changes the entry of its channel as it may, and nothing else. -/
structure IsLawful (h : HealthSettings) (p : Probing) : Prop where
  entry : ∃ e e', p.before.entry? p.id = some e ∧ p.after.entry? p.id = some e' ∧
    p.Explains h e e'
  others : ∀ id, id ≠ p.id → p.after.entry? id = p.before.entry? id
  ids : p.after.ids = p.before.ids

/-- A change of the entry that the probe explains is lawful. -/
theorem isLawful_of_change {h : HealthSettings} {p : Probing}
    {f : Registry.Entry → Registry.Entry} (hf : KeepsId f)
    (ha : p.after = p.before.change p.id f) {e : Registry.Entry}
    (he : p.before.entry? p.id = some e) (explains : p.Explains h e (f e)) : p.IsLawful h where
  entry := by
    refine ⟨e, f e, he, ?_, explains⟩
    rw [ha, Registry.entry?_change hf, if_pos rfl, he]
    rfl
  others id hid := by rw [ha, Registry.entry?_change hf, if_neg hid]
  ids := by rw [ha, Registry.ids_change hf]

namespace IsLawful

variable {h : HealthSettings} {p : Probing} {id : Nat} {c : Channel}

/-- A channel whose status the probe leaves alone stays what it is. -/
theorem channel?_after (hp : p.IsLawful h) (hc : p.before.channel? id = some c)
    (same : ∀ e e', p.Explains h e e' → e.channel = c → e'.channel.status = c.status) :
    p.after.channel? id = some c := by
  by_cases hid : id = p.id
  · subst hid
    obtain ⟨e, e', he, he', explains⟩ := hp.entry
    rw [Registry.channel?, he] at hc
    obtain rfl : e.channel = c := Option.some.inj hc
    have hsame := same e e' explains rfl
    rw [Registry.channel?, he', Option.map_some, explains.channel, hsame]
  · rw [Registry.channel?, hp.others id hid]
    exact hc

/-- A channel that is neither enabled nor disabled automatically stays what it is. -/
theorem channel?_of_kept (hp : p.IsLawful h) (hc : p.before.channel? id = some c)
    (notEnabled : c.status ≠ .enabled) (notDisabled : c.status ≠ .autoDisabled) :
    p.after.channel? id = some c := by
  refine hp.channel?_after hc fun e e' explains he => ?_
  subst he
  by_contra hne
  rcases explains.changed hne with ⟨hE, -⟩ | ⟨hA, -⟩
  · exact notEnabled hE
  · exact notDisabled hA

/-- Without a threshold an enabled channel stays enabled, unless it is rejected. -/
theorem channel?_of_accepted (hp : p.IsLawful h) (none : h.disableThreshold = 0)
    (accepted : ¬ p.IsRejected h) (hc : p.before.channel? id = some c)
    (enabled : c.status = .enabled) : p.after.channel? id = some c := by
  refine hp.channel?_after hc fun e e' explains he => ?_
  subst he
  by_contra hne
  rcases explains.changed hne with ⟨hE, hA⟩ | ⟨hA, -⟩
  · rcases (explains.disabled hE).mp hA with ⟨-, slow⟩ | rejected
    · exact slow.1 none
    · exact accepted rejected
  · cases enabled.symm.trans hA

end IsLawful

end Probing

/-! ## The decision matrix -/

theorem isSlow_ofSettings (h : HealthSettings) (elapsed : Nat) :
    (DisablePolicy.ofSettings h).isSlow elapsed = true ↔
      h.disableThreshold ≠ 0 ∧ h.disableThreshold < elapsed := by
  unfold DisablePolicy.isSlow DisablePolicy.ofSettings
  split <;> simp_all

theorem provider?_eq_some_iff {f : Failure} {e : ProviderError} :
    f.provider? = some e ↔ f = .probe (.provider e) := by
  unfold Failure.provider?
  split <;> simp_all

theorem disables_ofSettings (h : HealthSettings) (f : Failure) :
    (DisablePolicy.ofSettings h).disables f = true ↔
      h.autoDisable = true ∧ ∃ e, f = .probe (.provider e) ∧ isDisabling e = true := by
  unfold DisablePolicy.disables
  rw [Bool.and_eq_true, Option.any_eq_true]
  simp only [provider?_eq_some_iff]
  rfl

namespace Verdict

variable {p : DisablePolicy} {status : ChannelStatus} {failure : Option Failure} {elapsed : Nat}

/-- Only an enabled channel is disabled, for slowness or for an error that disables. -/
theorem change_of_eq_disable_iff :
    (∃ reason, (Verdict.of p status failure elapsed).change = .disable reason) ↔
      status = .enabled ∧
        (p.isSlow elapsed = true ∨ ∃ f, failure = some f ∧ p.disables f = true) := by
  unfold Verdict.of ofEnabled ofDisabled
  by_cases he : status = .enabled
  · cases hs : p.isSlow elapsed <;> cases failure <;> simp [he]
    split <;> simp [*]
  · rw [if_neg he]
    cases failure <;> simp [he]
    split <;> try split
    all_goals simp

/-- Only a channel that was disabled automatically comes back, if it answers in time. -/
theorem change_of_eq_enable_iff :
    (Verdict.of p status failure elapsed).change = .enable ↔
      status = .autoDisabled ∧ failure = none ∧ p.isSlow elapsed = false := by
  unfold Verdict.of ofEnabled ofDisabled
  by_cases he : status = .enabled
  · cases hs : p.isSlow elapsed <;> cases failure <;> simp [he]
    split <;> simp
  · rw [if_neg he]
    cases failure <;> cases hs : p.isSlow elapsed <;> simp
    split <;> simp [*]

/-- The latency of every answer in time is kept. -/
theorem keepsLatency_of :
    (Verdict.of p status failure elapsed).keepsLatency = (failure.isNone && !p.isSlow elapsed) := by
  unfold Verdict.of ofEnabled ofDisabled
  by_cases he : status = .enabled
  · cases hs : p.isSlow elapsed <;> cases failure <;> simp [he]
    split <;> rfl
  · rw [if_neg he]
    cases failure <;> cases hs : p.isSlow elapsed <;> simp
    split <;> rfl

end Verdict

namespace Monitor

variable {m : Monitor (Registry × ω)} {c : Channel} {p : Probing} {e : Registry.Entry}

theorem isSlow_iff : m.policy.isSlow p.elapsed = true ↔ p.IsSlow m.health :=
  isSlow_ofSettings m.health p.elapsed

theorem failure?_eq_none_iff : failure? p.outcome = none ↔ p.Succeeded := by
  unfold Probing.Succeeded
  cases p.outcome <;> simp [failure?]

theorem disables_iff :
    (∃ f, failure? p.outcome = some f ∧ m.policy.disables f = true) ↔ p.IsRejected m.health := by
  unfold policy
  simp only [disables_ofSettings, Probing.IsRejected]
  cases p.outcome with
  | ok success => simp [failure?]
  | error f => simp only [failure?, Option.some.injEq, exists_eq_left', Except.error.injEq]

/-! ### Visits -/

theorem verdict_disables_iff :
    (∃ reason, (m.verdict c (p.outcome, p.elapsed)).change = .disable reason) ↔
      c.status = .enabled ∧ (p.IsSlow m.health ∨ p.IsRejected m.health) := by
  rw [verdict, Verdict.change_of_eq_disable_iff, isSlow_iff, disables_iff]

theorem verdict_enables_iff :
    (m.verdict c (p.outcome, p.elapsed)).change = .enable ↔
      c.status = .autoDisabled ∧ p.Succeeded ∧ ¬ p.IsSlow m.health := by
  rw [verdict, Verdict.change_of_eq_enable_iff, failure?_eq_none_iff, ← isSlow_iff,
    Bool.not_eq_true]

theorem verdict_keepsLatency_iff :
    (m.verdict c (p.outcome, p.elapsed)).keepsLatency = true ↔
      p.Succeeded ∧ ¬ p.IsSlow m.health := by
  rw [verdict, Verdict.keepsLatency_of, Bool.and_eq_true, Option.isNone_iff_eq_none,
    failure?_eq_none_iff, ← isSlow_iff, Bool.not_eq_true', Bool.not_eq_true]

/-- What a sweep makes of an entry is what the probe explains. -/
theorem explains_visit (swept : p.swept = true) (he : e.channel.status = c.status) :
    p.Explains m.health e ((m.verdict c (p.outcome, p.elapsed)).amend p.elapsed e) := by
  have hdisable := verdict_disables_iff (m := m) (c := c) (p := p)
  have henable := verdict_enables_iff (m := m) (c := c) (p := p)
  have hkeep := verdict_keepsLatency_iff (m := m) (c := c) (p := p)
  generalize m.verdict c (p.outcome, p.elapsed) = v at *
  have htimed : p.IsTimed m.health ↔ v.keepsLatency = true := by
    simp [Probing.IsTimed, swept, hkeep]
  refine ⟨?_, fun hne => ?_, fun hE => ?_, fun hA => ?_, fun h => ?_, fun h => ?_⟩
  · rw [Verdict.channel_amend]
    exact v.change.channel_amend e
  · rw [Verdict.channel_amend] at hne ⊢
    rcases StatusChange.of_status_amend_ne hne with ⟨reason, hv⟩ | hv
    · exact .inl ⟨he.trans (hdisable.mp ⟨reason, hv⟩).1, by rw [hv]; rfl⟩
    · exact .inr ⟨he.trans (henable.mp hv).1, by rw [hv]; rfl⟩
  · rw [Verdict.channel_amend, StatusChange.status_amend_eq_autoDisabled_iff hE, hdisable]
    simp [swept, ← he, hE]
  · rw [Verdict.channel_amend, StatusChange.status_amend_eq_enabled_iff hA, henable]
    simp [swept, ← he, hA]
  · rw [Verdict.responseTime_amend, if_pos (htimed.mp h)]
  · rw [Verdict.responseTime_amend, if_neg (mt htimed.mpr h)]

/-! ### Single tests -/

/-- A single test that leaves the channel alone. -/
theorem explains_of_kept {e' : Registry.Entry} (single : p.swept = false)
    (kept : e'.channel = e.channel)
    (accepted : e.channel.status = .enabled → ¬ p.IsRejected m.health)
    (timed : p.IsTimed m.health → e'.responseTime = some p.elapsed)
    (untimed : ¬ p.IsTimed m.health → e'.responseTime = e.responseTime) :
    p.Explains m.health e e' where
  channel := by rw [kept]
  changed hne := absurd (by rw [kept]) hne
  disabled hE := by simp [kept, hE, single, accepted hE]
  enabled hA := by simp [kept, hA, single]
  timed := timed
  untimed := untimed

/-- What a single test makes of an entry is what the probe explains. -/
theorem explains_test (single : p.swept = false) (he : e.channel = c) :
    p.Explains m.health e (m.amendTest c p.outcome p.elapsed e) := by
  have htimed : p.IsTimed m.health ↔ p.Succeeded := by simp [Probing.IsTimed, single]
  have hreject := disables_iff (m := m) (p := p)
  cases ho : p.outcome with
  | ok success =>
    have succeeded : p.Succeeded := ⟨success, ho⟩
    have accepted : ¬ p.IsRejected m.health := by
      rintro ⟨-, error, hf, -⟩
      cases ho.symm.trans hf
    exact explains_of_kept single rfl (fun _ => accepted) (fun _ => rfl)
      fun h => absurd (htimed.mpr succeeded) h
  | error f =>
    have failed : ¬ p.IsTimed m.health := by
      rw [htimed]
      rintro ⟨success, hs⟩
      cases ho.symm.trans hs
    have hdisables : m.policy.disables f = true ↔ p.IsRejected m.health := by
      rw [← hreject, ho]
      simp [failure?]
    unfold amendTest
    dsimp only
    split
    · rename_i h
      obtain ⟨hE, hd⟩ := Bool.and_eq_true_iff.mp h
      have enabled : e.channel.status = .enabled := by
        rw [he]
        exact of_decide_eq_true hE
      exact {
        channel := rfl
        changed := fun _ => .inl ⟨enabled, rfl⟩
        disabled := fun _ => ⟨fun _ => .inr (hdisables.mp hd), fun _ => rfl⟩
        enabled := fun hA => by cases enabled.symm.trans hA
        timed := fun h => absurd h failed
        untimed := fun _ => rfl }
    · rename_i h
      refine explains_of_kept single rfl (fun hE hr => h ?_) (fun h => absurd h failed) fun _ => rfl
      have enabled : c.isEnabled = true := decide_eq_true (he ▸ hE)
      rw [enabled, hdisables.mpr hr]
      rfl

end Monitor

end Switchboard.Health
