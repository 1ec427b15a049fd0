import Switchboard.Proofs.Health.History

/-!
# Others change the registry too

While the monitor pauses and probes, others may change the registry. They do so between any
two things that the monitor asks of its surroundings, so here whatever it asks, apart from
the store, may change the registry as well. The monitor does not look again before it
writes : it decides by the status that it read when it listed the channels or looked one up.

So a channel that was read as neither enabled nor disabled automatically has its status
changed by others only (`Operation.statusAlong_perform`), and one that was disabled by hand
stays so until others say otherwise. But a channel that is disabled by hand after it was read
is disabled automatically all the same, if its probe says so (`overwritten_while_paused`).
-/

namespace Switchboard

/-- The status of the channel with an id. -/
def Registry.status? (r : Registry) (id : Nat) : Option ChannelStatus :=
  (r.entry? id).map (·.channel.status)

/-- A change that leaves the status alone, or is of another channel. -/
theorem Registry.status?_change {r : Registry} {id i : Nat} {f : Registry.Entry → Registry.Entry}
    (hf : KeepsId f) (same : i = id → ∀ e, (f e).channel.status = e.channel.status) :
    (r.change id f).status? i = r.status? i := by
  unfold status?
  rw [entry?_change hf]
  split
  · rename_i hi
    rw [Option.map_map]
    exact congrArg (fun g => (r.entry? i).map g) (funext (same hi))
  · rfl

namespace Health

variable {ω : Type} {P : Option ChannelStatus → Option ChannelStatus → Prop}

/-- The status of a channel in a world and its status in another are related. -/
def StatusAlong (P : Option ChannelStatus → Option ChannelStatus → Prop) (id : Nat)
    (v w : Registry × ω) : Prop :=
  P (v.1.status? id) (w.1.status? id)

instance [IsPreorder (Option ChannelStatus) P] (id : Nat) :
    IsPreorder (Registry × ω) (StatusAlong P id) where
  refl v := refl (v.1.status? id)
  trans _ _ _ h h' := IsTrans.trans (r := P) _ _ _ h h'

/-! ## What was read -/

/-- Neither of the two statuses that the monitor changes. -/
def IsSettled (status : ChannelStatus) : Prop := status ≠ .enabled ∧ status ≠ .autoDisabled

variable {m : Monitor (Registry × ω)} {c : Channel} (settled : IsSettled c.status)

include settled

/-- No verdict on a channel that was read as settled changes a status. -/
theorem status_amend_of_settled (probed : Except Failure Success × Nat) (e : Registry.Entry) :
    ((m.verdict c probed).amend probed.2 e).channel.status = e.channel.status := by
  have hchange : (m.verdict c probed).change = .keep := by
    cases hv : (m.verdict c probed).change with
    | disable reason => exact absurd (Verdict.change_of_eq_disable_iff.mp ⟨reason, hv⟩).1 settled.1
    | enable => exact absurd (Verdict.change_of_eq_enable_iff.mp hv).1 settled.2
    | keep => rfl
  unfold Verdict.amend Verdict.amendTime
  rw [hchange]
  split <;> rfl

/-- No single test of a channel that was read as settled changes a status. -/
theorem status_amendTest_of_settled (outcome : Except Failure Success) (elapsed : Nat)
    (e : Registry.Entry) :
    (m.amendTest c outcome elapsed e).channel.status = e.channel.status := by
  have hdisabled : c.isEnabled = false := decide_eq_false settled.1
  unfold Monitor.amendTest
  cases outcome with
  | ok success => rfl
  | error f => simp [hdisabled]

omit settled

/-! ## What is written -/

/-- A write that leaves the status alone, or is to another channel. -/
theorem statusAlong_change {id i : Nat} {v : Registry × ω} {s : Session (Registry × ω)}
    {f : Registry.Entry → Registry.Entry} (h : StatusAlong P id v s.world)
    (hf : Registry.KeepsId f) (same : id = i → ∀ e, (f e).channel.status = e.channel.status) :
    StatusAlong P id v (change i f s).world := by
  have written : (change i f s).world.1.status? id = s.world.1.status? id :=
    Registry.status?_change hf same
  unfold StatusAlong at *
  rwa [written]

section Writes

variable [Tokenizer] [IsPreorder (Option ChannelStatus) P] {id : Nat}
  (hs : m.surroundings.store = Registry.store)
  (others : m.surroundings.Along (StatusAlong P id))

include hs others

theorem Monitor.statusAlong_visit (settled : c.id = id → IsSettled c.status) :
    Along (StatusAlong P id) (m.visit c) := by
  intro s
  have paused : StatusAlong P id s.world (m.rested s).world := others.sleep _ _
  have probed := Monitor.along_timedProbe others c none (m.rested s)
  rw [visit_snd hs]
  exact statusAlong_change (IsTrans.trans _ _ _ paused probed) (Verdict.keepsId_amend _ _)
    fun h e => status_amend_of_settled (settled h.symm) _ e

theorem Monitor.statusAlong_test {i : Nat} (asked : Option String) (s : Session (Registry × ω))
    (settled : ∀ c, s.world.1.channel? i = some c → i = id → IsSettled c.status) :
    StatusAlong P id s.world ((m.test i asked).run s).2.world := by
  rw [test_snd hs]
  cases hc : s.world.1.channel? i with
  | none => exact refl (r := StatusAlong P id) s.world
  | some c =>
    exact statusAlong_change (Monitor.along_timedProbe others c asked s) (keepsId_amendTest m _ _ _)
      fun h e => status_amendTest_of_settled (settled c hc h.symm) _ _ e

/-- Whatever others do in the meantime, a channel that an operation reads as neither enabled
nor disabled automatically has its status moved by others only. -/
theorem Operation.statusAlong_perform (operation : Operation) (s : Session (Registry × ω))
    (settled : ∀ c ∈ s.world.1.channels, c.id = id → IsSettled c.status) :
    StatusAlong P id s.world (operation.perform m s).2.world := by
  cases operation with
  | test i asked =>
    refine Monitor.statusAlong_test hs others asked s fun c hc hi => ?_
    obtain ⟨e, he, rfl, hid⟩ := Registry.exists_entry hc
    exact settled e.channel (List.mem_map_of_mem (List.mem_of_find?_eq_some he)) (hid.trans hi)
  | sweep notify =>
    rw [Operation.perform_sweep hs]
    have swept : Along (StatusAlong P id) (m.sweep s.world.1.channels notify) := by
      refine .bind
        (.mapM fun c hc => Monitor.statusAlong_visit hs others (settled c hc)) fun found => ?_
      cases notify with
      | false => exact .pure _
      | true => exact .bind (fun s => others.notify _ _ _) fun _ => .pure _
    exact swept s

end Writes

/-! ## An operator who disables a channel by hand -/

/-- Who is disabled by hand stays so. -/
def StaysManual (before after : Option ChannelStatus) : Prop :=
  before = some .manuallyDisabled → after = some .manuallyDisabled

instance : IsPreorder (Option ChannelStatus) StaysManual where
  refl _ h := h
  trans _ _ _ h h' := fun start => h' (h start)

/-- The impatient monitor, while an operator disables the first channel by hand in the first
pause before a probe. -/
def meddled : Monitor (Registry × Nat) :=
  { impatient with surroundings :=
    { secluded with
      sleep := fun time w =>
        (if w.2 = 0 then w.1.change 1 (.withStatus .manuallyDisabled "") else w.1, w.2 + time) } }

theorem along_meddled : meddled.surroundings.Along (StatusAlong StaysManual 2) where
  network := ⟨fun _ _ h => h, fun _ _ h => h, fun _ _ h => h⟩
  journal _ _ h := h
  notify _ _ _ h := h
  watch _ h := h
  sleep time w := by
    have untouched : (w.1.change 1 (.withStatus .manuallyDisabled "")).status? 2 =
        w.1.status? 2 :=
      Registry.status?_change (Registry.keepsId_withStatus _ _) fun h => absurd h (by decide)
    simp only [meddled, StatusAlong]
    split
    · rw [untouched]
      exact refl (r := StaysManual) _
    · exact refl (r := StaysManual) _

/-- The second channel of the pair was disabled by hand before, and stays so. -/
theorem statusAlong_perform_meddled :
    StatusAlong StaysManual 2 pair.world ((Operation.sweep false).perform meddled pair).2.world ∧
      pair.world.1.status? 2 = some .manuallyDisabled := by
  refine ⟨Operation.statusAlong_perform rfl along_meddled (.sweep false) pair ?_, rfl⟩
  intro c hc hid
  have hpair : c = untested 1 .enabled ∨ c = untested 2 .manuallyDisabled := by
    simpa [pair, Registry.channels, Registry.ofChannels] using hc
  rcases hpair with rfl | rfl
  · cases hid
  · exact ⟨by decide, by decide⟩

/-- The first channel is disabled by hand when the monitor carries out its verdict, which
was made for an enabled channel : the status is changed all the same. -/
theorem overwritten_while_paused :
    (meddled.timedProbe (untested 1 .enabled) none (meddled.rested pair)).2.world.1.status? 1 =
        some .manuallyDisabled ∧
      (meddled.visit (untested 1 .enabled) pair).2.world.1.status? 1 = some .autoDisabled ∧
      ((Operation.sweep false).perform meddled pair).2.world.1.status? 1 = some .autoDisabled :=
  ⟨rfl, rfl, rfl⟩

end Health

end Switchboard
