import Switchboard.Proofs.Health.Matrix

/-!
# Histories of the monitor

The monitor sweeps the channels and tests single ones, one operation after another, and
nothing but its store touches the registry. Whatever the probes find and however long they
take, the registry changes only where a probe is dealt with (`Linked`), and there only as the
decision matrix allows (`Probing.IsLawful`). `Monitor.history_lawful` says so of every history
of a registry with distinct ids, together with what follows for channels that were disabled
by hand and for the reports.
-/

namespace Switchboard.Health

variable {ω : Type}

/-! ## Links -/

/-- Probes lead from one registry to another, each beginning with the registry that the one
before it left. -/
def Linked (r : Registry) : List Probing → Registry → Prop
  | [], r' => r' = r
  | p :: rest, r' => p.before = r ∧ Linked p.after rest r'

theorem Linked.append {r r' r'' : Registry} {ps qs : List Probing} (hp : Linked r ps r')
    (hq : Linked r' qs r'') : Linked r (ps ++ qs) r'' := by
  induction ps generalizing r with
  | nil =>
    obtain rfl : r' = r := hp
    exact hq
  | cons p rest ih => exact ⟨hp.1, ih hp.2⟩

/-- What every lawful probe keeps is kept in the end. -/
theorem Linked.induction {P : Registry → Prop} {r r' : Registry} {ps : List Probing}
    (h : Linked r ps r') (step : ∀ p ∈ ps, P p.before → P p.after) (start : P r) : P r' := by
  induction ps generalizing r with
  | nil =>
    obtain rfl : r' = r := h
    exact start
  | cons p rest ih =>
    obtain ⟨rfl, hrest⟩ := h
    exact ih hrest (fun q hq => step q (List.mem_cons_of_mem p hq))
      (step p List.mem_cons_self start)

/-! ## Operations -/

/-- What the monitor can be told to do. -/
inductive Operation where
  | sweep (notify : Bool)
  | test (id : Nat) (asked : Option String)
  deriving DecidableEq, Repr

/-- A sweep gives a report with one finding for each channel, in the order of their ids; a
single test gives none. -/
def Operation.Reports (ids : List Nat) : Operation → Option Report → Prop
  | sweep _, report? => ∃ report, report? = some report ∧
      report.findings.map (fun f => f.1.id) = ids
  | test _ _, report? => report? = none

/-- What is expected of a history with some probes that leads from one registry to another
and gives some reports. -/
structure IsLawfulHistory (h : HealthSettings) (operations : List Operation) (r : Registry)
    (probes : List Probing) (r' : Registry) (reports : List (Option Report)) : Prop where
  /-- The registry changes only where probes are dealt with. -/
  linked : Linked r probes r'
  lawful : ∀ p ∈ probes, p.IsLawful h
  /-- What is neither enabled nor disabled automatically stays as it is. -/
  kept : ∀ id c, r.channel? id = some c → c.status ≠ .enabled → c.status ≠ .autoDisabled →
    r'.channel? id = some c
  /-- Without a threshold no channel is disabled for its latency. -/
  latency : h.disableThreshold = 0 → ∀ p ∈ probes, ¬ p.IsRejected h → ∀ id c,
    p.before.channel? id = some c → c.status = .enabled → p.after.channel? id = some c
  reports : List.Forall₂ (Operation.Reports r.ids) operations reports

/-- The second of two worlds has the registry of the first. -/
def KeepsRegistry (v w : Registry × ω) : Prop := w.1 = v.1

instance : IsPreorder (Registry × ω) KeepsRegistry where
  refl _ := rfl
  trans _ _ _ h h' := h'.trans h

section Histories

variable [Tokenizer]

/-- Carry out an operation, for its report. -/
def Operation.perform (m : Monitor (Registry × ω)) :
    Operation → StateM (Session (Registry × ω)) (Option Report)
  | sweep notify => do
    match ← m.beginSweep .free with
    | (.ok channels, _) => return some (← m.sweep channels notify)
    | (.error _, _) => return none
  | test id asked => do
    let _ ← (m.test id asked).run
    return none

namespace Monitor

/-- Carry out operations one after another, for their reports. -/
def history (m : Monitor (Registry × ω)) (operations : List Operation) :
    StateM (Session (Registry × ω)) (List (Option Report)) :=
  operations.mapM fun operation => operation.perform m

/-- The probe of a channel in a session, with the registry after it was dealt with. -/
def probing (m : Monitor (Registry × ω)) (swept : Bool) (c : Channel) (asked : Option String)
    (s after : Session (Registry × ω)) : Probing :=
  let probed := (m.timedProbe c asked s).1
  ⟨swept, c.id, probed.1, probed.2, s.world.1, after.world.1⟩

/-- The probes of a sweep of the listed channels. -/
def visits (m : Monitor (Registry × ω)) : List Channel → Session (Registry × ω) → List Probing
  | [], _ => []
  | c :: rest, s =>
    m.probing true c none (m.rested s) (m.visit c s).2 :: m.visits rest (m.visit c s).2

end Monitor

/-- The probes of an operation. -/
def Operation.probings (m : Monitor (Registry × ω)) :
    Operation → Session (Registry × ω) → List Probing
  | sweep _, s => m.visits s.world.1.channels s
  | test id asked, s => match s.world.1.channel? id with
    | none => []
    | some c => [m.probing false c asked s ((m.test id asked).run s).2]

/-- The probes of a history. -/
def Monitor.probings (m : Monitor (Registry × ω)) :
    List Operation → Session (Registry × ω) → List Probing
  | [], _ => []
  | operation :: rest, s =>
    operation.probings m s ++ m.probings rest (operation.perform m s).2

section Laws

variable {m : Monitor (Registry × ω)} (hs : m.surroundings.store = Registry.store)
  (hk : m.surroundings.Along KeepsRegistry)

include hs hk

/-! ## One probe -/

theorem Monitor.isLawful_visit {c : Channel} {s : Session (Registry × ω)}
    (hc : s.world.1.channel? c.id = some c) :
    (m.probing true c none (m.rested s) (m.visit c s).2).before = s.world.1 ∧
      (m.probing true c none (m.rested s) (m.visit c s).2).IsLawful m.health := by
  have hrested : (m.rested s).world.1 = s.world.1 := hk.sleep _ _
  have hprobed : (m.timedProbe c none (m.rested s)).2.world.1 = (m.rested s).world.1 :=
    Monitor.along_timedProbe hk c none (m.rested s)
  refine ⟨hrested, ?_⟩
  rw [← hrested] at hc
  obtain ⟨e, he, rfl, -⟩ := Registry.exists_entry hc
  refine Probing.isLawful_of_change (Verdict.keepsId_amend _ _) ?_ he (explains_visit rfl rfl)
  rw [visit_snd hs]
  exact congrArg (Registry.change · _ _) hprobed

theorem Monitor.isLawful_test {id : Nat} {c : Channel} {s : Session (Registry × ω)}
    (asked : Option String) (hc : s.world.1.channel? id = some c) :
    (m.probing false c asked s ((m.test id asked).run s).2).IsLawful m.health := by
  have hprobed : (m.timedProbe c asked s).2.world.1 = s.world.1 :=
    Monitor.along_timedProbe hk c asked s
  obtain ⟨e, he, rfl, rfl⟩ := Registry.exists_entry hc
  refine Probing.isLawful_of_change (keepsId_amendTest m _ _ _) ?_ he (explains_test rfl rfl)
  simp only [probing, test_snd hs, hc]
  exact congrArg (Registry.change · _ _) hprobed

/-! ## Operations and histories -/

/-- A sweep visits every listed channel once, in order. -/
theorem Monitor.linked_visits {channels : List Channel} (distinct : (channels.map (·.id)).Nodup)
    {s : Session (Registry × ω)} (listed : ∀ c ∈ channels, s.world.1.channel? c.id = some c) :
    Linked s.world.1 (m.visits channels s) (channels.mapM m.visit s).2.world.1 ∧
      (∀ p ∈ m.visits channels s, p.IsLawful m.health) ∧
      (channels.mapM m.visit s).1.map (·.1) = channels := by
  induction channels generalizing s with
  | nil => exact ⟨rfl, by simp [visits], rfl⟩
  | cons c rest ih =>
    obtain ⟨hne, hrest⟩ := List.nodup_cons.mp distinct
    obtain ⟨hbefore, hlawful⟩ := isLawful_visit hs hk (listed c List.mem_cons_self)
    -- The visit leaves the entries of the channels that are still to be visited alone.
    have still : ∀ d ∈ rest, (m.visit c s).2.world.1.channel? d.id = some d := by
      intro d hd
      have hid : d.id ≠ c.id := fun h => hne (List.mem_map.mpr ⟨d, hd, h⟩)
      have hentry : Registry.entry? (m.visit c s).2.world.1 d.id =
          Registry.entry? (m.rested s).world.1 d.id := hlawful.others d.id hid
      have hsame : (m.rested s).world.1 = s.world.1 := hbefore
      rw [Registry.channel?, hentry, hsame]
      exact listed d (List.mem_cons_of_mem c hd)
    obtain ⟨hlinked, hall, hfound⟩ := ih hrest still
    have hrun : (c :: rest).mapM m.visit s =
        ((m.visit c s).1 :: (rest.mapM m.visit (m.visit c s).2).1,
          (rest.mapM m.visit (m.visit c s).2).2) := by
      rw [List.mapM_cons]
      rfl
    rw [hrun]
    refine ⟨⟨hbefore, hlinked⟩, List.forall_mem_cons.mpr ⟨hlawful, hall⟩, ?_⟩
    rw [List.map_cons, hfound]
    rfl

omit hs hk in
theorem Monitor.findings_sweep (channels : List Channel) (notify : Bool)
    (s : Session (Registry × ω)) :
    (m.sweep channels notify s).1.findings = (channels.mapM m.visit s).1 := by
  cases notify <;> rfl

omit hs in
/-- Delivering the report leaves the registry alone. -/
theorem Monitor.registry_sweep (channels : List Channel) (notify : Bool)
    (s : Session (Registry × ω)) :
    (m.sweep channels notify s).2.world.1 = (channels.mapM m.visit s).2.world.1 := by
  cases notify with
  | false => rfl
  | true => exact hk.notify _ _ _

omit hk in
/-- A sweep that nobody holds up is one of the channels that the registry lists. -/
theorem Operation.perform_sweep (notify : Bool) (s : Session (Registry × ω)) :
    (sweep notify).perform m s = (some (m.sweep s.world.1.channels notify s).1,
      (m.sweep s.world.1.channels notify s).2) := by
  have hbegin : m.beginSweep .free s = ((.ok s.world.1.channels, ⟨true⟩), s) := by
    unfold Monitor.beginSweep
    rw [hs]
    rfl
  have hbind {α β : Type} (a : StateM (Session (Registry × ω)) α)
      (f : α → StateM (Session (Registry × ω)) β) : (a >>= f) s = f (a s).1 (a s).2 := rfl
  rw [perform, hbind, hbegin]
  rfl

/-- What holds of an operation: its probes lead from the registry before it to the registry
after it, and are lawful; its report is about every channel. -/
theorem Operation.lawful (operation : Operation) {s : Session (Registry × ω)}
    (distinct : s.world.1.IsDistinct) :
    Linked s.world.1 (operation.probings m s) (operation.perform m s).2.world.1 ∧
      (∀ p ∈ operation.probings m s, p.IsLawful m.health) ∧
      operation.Reports s.world.1.ids (operation.perform m s).1 := by
  cases operation with
  | test id asked =>
    have hrun : (test id asked).perform m s = (none, ((m.test id asked).run s).2) := rfl
    rw [hrun]
    cases hc : s.world.1.channel? id with
    | none =>
      have hsnd : ((m.test id asked).run s).2 = s := by rw [Monitor.test_snd hs, hc]
      simp [probings, hc, Linked, hsnd, Reports]
    | some c =>
      simp only [probings, hc]
      exact ⟨⟨rfl, rfl⟩, List.forall_mem_singleton.mpr (Monitor.isLawful_test hs hk asked hc), rfl⟩
  | sweep notify =>
    rw [perform_sweep hs, Monitor.registry_sweep hk]
    obtain ⟨hlinked, hlawful, hfound⟩ := Monitor.linked_visits hs hk
      (by rwa [Registry.map_id_channels]) fun c hc => Registry.channel?_of_mem distinct hc
    refine ⟨hlinked, hlawful, _, rfl, ?_⟩
    rw [Monitor.findings_sweep, ← Registry.map_id_channels, ← congrArg (List.map _) hfound,
      List.map_map]
    rfl

theorem Monitor.linked_history (operations : List Operation) {s : Session (Registry × ω)}
    (distinct : s.world.1.IsDistinct) :
    Linked s.world.1 (m.probings operations s) (m.history operations s).2.world.1 ∧
      (∀ p ∈ m.probings operations s, p.IsLawful m.health) ∧
      List.Forall₂ (Operation.Reports s.world.1.ids) operations (m.history operations s).1 := by
  induction operations generalizing s with
  | nil => exact ⟨rfl, by simp [probings], .nil⟩
  | cons operation rest ih =>
    obtain ⟨hlinked, hlawful, hreports⟩ := operation.lawful hs hk distinct
    have hids : (operation.perform m s).2.world.1.ids = s.world.1.ids :=
      hlinked.induction (P := fun r => r.ids = s.world.1.ids)
        (fun p hp h => ((hlawful p hp).ids).trans h) rfl
    have hdistinct : (operation.perform m s).2.world.1.IsDistinct := by
      unfold Registry.IsDistinct
      rwa [hids]
    obtain ⟨hlinked', hlawful', hreports'⟩ := ih hdistinct
    have hrun : m.history (operation :: rest) s =
        ((operation.perform m s).1 :: (m.history rest (operation.perform m s).2).1,
          (m.history rest (operation.perform m s).2).2) := by
      unfold history
      rw [List.mapM_cons]
      rfl
    rw [hrun]
    refine ⟨hlinked.append hlinked', List.forall_mem_append.mpr ⟨hlawful, hlawful'⟩,
      .cons hreports ?_⟩
    rwa [hids] at hreports'

/-- Every history of a registry with distinct ids is lawful, whatever its probes find and
however long they take. -/
theorem Monitor.history_lawful (operations : List Operation) (s : Session (Registry × ω))
    (distinct : s.world.1.IsDistinct) :
    IsLawfulHistory m.health operations s.world.1 (m.probings operations s)
      (m.history operations s).2.world.1 (m.history operations s).1 := by
  obtain ⟨hlinked, hlawful, hreports⟩ := linked_history hs hk operations distinct
  exact {
    linked := hlinked
    lawful := hlawful
    kept := fun id c hc notEnabled notDisabled =>
      hlinked.induction (P := fun r => r.channel? id = some c)
        (fun p hp h => (hlawful p hp).channel?_of_kept h notEnabled notDisabled) hc
    latency := fun none p hp accepted id c hc enabled =>
      (hlawful p hp).channel?_of_accepted none accepted hc enabled
    reports := hreports }

end Laws

end Histories

/-- Surroundings in which no server can be reached and a look at the watch takes ten
nanoseconds. -/
def secluded : Surroundings (Registry × Nat) where
  network := {
    send := fun _ w => (.error "unreachable", w)
    invoke := fun _ w => (.error (.other "unreachable"), w)
    invokeStream := fun _ w => (.error (.other "unreachable"), w) }
  store := Registry.store
  journal _ w := w
  notify _ _ w := (.ok (), w)
  watch w := (w.2, w.1, w.2 + 10)
  sleep time w := (w.1, w.2 + time)

theorem along_secluded : secluded.Along KeepsRegistry where
  network := ⟨fun _ _ => rfl, fun _ _ => rfl, fun _ _ => rfl⟩
  journal _ _ := rfl
  notify _ _ _ := rfl
  watch _ := rfl
  sleep _ _ := rfl

/-- A channel without a model to test it with. -/
def untested (id : Nat) (status : ChannelStatus) : Channel :=
  ⟨id, "", .openAI, "", none, status, 0, none, []⟩

/-- A monitor that takes five nanoseconds to be long. -/
def impatient : Monitor (Registry × Nat) :=
  ⟨secluded, .default, { HealthSettings.default with disableThreshold := 5 }⟩

/-- Two channels, the second of them disabled by hand. -/
def pair : Session (Registry × Nat) :=
  ⟨⟨⟨0⟩, 0⟩, .ofChannels [untested 1 .enabled, untested 2 .manuallyDisabled], 0⟩

theorem history_lawful_impatient :
    IsLawfulHistory impatient.health [.sweep false, .test 2 none] pair.world.1
        (impatient.probings [.sweep false, .test 2 none] pair)
        (impatient.history [.sweep false, .test 2 none] pair).2.world.1
        (impatient.history [.sweep false, .test 2 none] pair).1 ∧
      (impatient.history [.sweep false, .test 2 none] pair).2.world.1.channels =
        [untested 1 .autoDisabled, untested 2 .manuallyDisabled] := by
  exact ⟨Monitor.history_lawful rfl along_secluded _ _ (by decide), rfl⟩

end Switchboard.Health
