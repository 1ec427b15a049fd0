import Mathlib.Data.List.Basic
import Switchboard.Health.Monitor

/-!
# Sweeps that overlap

Any number of parties may ask for a sweep at the same time. Who gets the flight lists the
channels, which takes a while; then the call ends, with the failure of the store, or with a
sweep that goes on in the background and gives the flight back when it ends. In between
anything may happen (`Turn`), and who waits for the channels may go away.

Whatever the order, the flight is held exactly while somebody lists or sweeps, there is never
more than one who does, and a call is refused exactly then and changes nothing
(`flight_after`). A call that nobody interrupts is `Monitor.beginSweep` (`beginSweep_eq`).
-/

namespace Switchboard.Health

variable {σ : Type}

/-- The second half of a call: list the channels for a sweep while the flight is held. -/
def Monitor.listForSweep (m : Monitor σ) (flight : Flight) :
    StateM (Session σ) (Except Failure (List Channel) × Flight) := do
  match ← (store m.surroundings.store.channels).run with
  | .ok channels => return (.ok channels, flight)
  | .error f => return (.error f, flight.release)

/-- A call asks for the flight, and lists the channels if it got it. -/
theorem Monitor.beginSweep_eq (m : Monitor σ) (flight : Flight) : m.beginSweep flight =
    match flight.acquire? with
    | none => pure (.error .alreadySweeping, flight)
    | some flight => m.listForSweep flight :=
  rfl

/-- Callers and sweeps around a monitor. Callers have numbers. -/
structure Traffic (σ : Type) where
  session : Session σ
  flight : Flight
  /-- Whose calls wait for the list of the channels. -/
  listing : List Nat
  /-- Whose sweeps go on in the background. -/
  sweeping : List Nat

/-- Nobody has asked yet. -/
def Traffic.start (session : Session σ) : Traffic σ := ⟨session, .free, [], []⟩

/-- Who holds the flight. -/
def Traffic.holders (t : Traffic σ) : List Nat := t.listing ++ t.sweeping

/-- Whose turn it is. -/
inductive Turn (σ : Type) where
  /-- Somebody calls for a sweep. -/
  | call (who : Nat)
  /-- The store answers a call that waits for the channels. -/
  | listed (who : Nat)
  /-- Who waits for the channels goes away. -/
  | leave (who : Nat)
  /-- A sweep in the background comes to its end. -/
  | swept (who : Nat)
  /-- Something happens in the surroundings: a sweep probes, or others do what they do. -/
  | elsewhere (session : Session σ)

namespace Traffic

/-- Take a turn, and give the answer to the call that ends with it. Who has no turn to take
takes none. -/
def take (m : Monitor σ) (t : Traffic σ) :
    Turn σ → Traffic σ × Option (Except Failure (List Channel))
  | .call who =>
    match t.flight.acquire? with
    | none => (t, some (.error .alreadySweeping))
    | some flight => ({ t with flight := flight, listing := who :: t.listing }, none)
  | .listed who =>
    if who ∈ t.listing then
      let ((answer, flight), session) := m.listForSweep t.flight t.session
      let sweeping := if answer.isOk then who :: t.sweeping else t.sweeping
      (⟨session, flight, t.listing.erase who, sweeping⟩, some answer)
    else (t, none)
  | .leave who =>
    if who ∈ t.listing then
      ({ t with flight := t.flight.release, listing := t.listing.erase who }, none)
    else (t, none)
  | .swept who =>
    if who ∈ t.sweeping then
      ({ t with flight := t.flight.release, sweeping := t.sweeping.erase who }, none)
    else (t, none)
  | .elsewhere session => ({ t with session := session }, none)

/-- Take turns, one after another. -/
def after (m : Monitor σ) (t : Traffic σ) (turns : List (Turn σ)) : Traffic σ :=
  turns.foldl (fun t turn => (t.take m turn).1) t

/-! ## What a turn keeps -/

variable {m : Monitor σ} {t : Traffic σ} {who : Nat}

/-- There is one holder while the flight is held, and none while it is free. -/
def IsOrderly (t : Traffic σ) : Prop := t.holders.length = t.flight.held.toNat

theorem IsOrderly.held_iff (h : t.IsOrderly) : t.flight.held = true ↔ t.holders ≠ [] := by
  rw [IsOrderly] at h
  rw [← List.length_pos_iff, h]
  cases t.flight.held <;> simp

theorem IsOrderly.held_of_mem (h : t.IsOrderly) (hw : who ∈ t.holders) :
    t.flight.held = true :=
  h.held_iff.mpr (List.ne_nil_of_mem hw)

/-- Who lists is alone with the flight. -/
theorem IsOrderly.of_mem_listing (h : t.IsOrderly) (hw : who ∈ t.listing) :
    t.listing = [who] ∧ t.sweeping = [] := by
  have hone : t.holders.length = 1 := by
    rw [h, h.held_of_mem (List.mem_append_left _ hw), Bool.toNat_true]
  rw [holders, List.length_append] at hone
  have hpos : 0 < t.listing.length := List.length_pos_of_mem hw
  obtain ⟨first, hf⟩ := List.length_eq_one_iff.mp (by omega : t.listing.length = 1)
  rw [hf, List.mem_singleton] at hw
  exact ⟨by rw [hf, hw], List.length_eq_zero_iff.mp (by omega)⟩

/-- So is who sweeps. -/
theorem IsOrderly.of_mem_sweeping (h : t.IsOrderly) (hw : who ∈ t.sweeping) :
    t.listing = [] ∧ t.sweeping = [who] := by
  have hone : t.holders.length = 1 := by
    rw [h, h.held_of_mem (List.mem_append_right _ hw), Bool.toNat_true]
  rw [holders, List.length_append] at hone
  have hpos : 0 < t.sweeping.length := List.length_pos_of_mem hw
  obtain ⟨first, hf⟩ := List.length_eq_one_iff.mp (by omega : t.sweeping.length = 1)
  rw [hf, List.mem_singleton] at hw
  exact ⟨List.length_eq_zero_iff.mp (by omega), by rw [hf, hw]⟩

/-- A call that finds the flight held is refused, and starts nothing. -/
theorem take_call_of_held (h : t.flight.held = true) (who : Nat) :
    t.take m (.call who) = (t, some (.error .alreadySweeping)) := by
  simp only [take, Flight.acquire?, h, if_true]

/-- A call that finds the flight free gets it, and lists. -/
theorem take_call_of_free (h : t.flight.held = false) (who : Nat) :
    t.take m (.call who) = ({ t with flight := ⟨true⟩, listing := who :: t.listing }, none) := by
  simp only [take, Flight.acquire?, h, Bool.false_eq_true, if_false]

section Listing

variable {session : Session σ} {world : σ} {answer : Except String (List Channel)}

/-- A failure of the store is the failure of the call, and then the flight is given back. -/
theorem listForSweep_eq (h : m.surroundings.store.channels session.world = (answer, world))
    (flight : Flight) : m.listForSweep flight session =
      ((answer.mapError .store, if answer.isOk then flight else .free),
        { session with world := world }) := by
  have hstore : (Monitor.store m.surroundings.store.channels).run session =
      (answer.mapError .store, { session with world := world }) := by
    show Monitor.store _ session = _
    simp only [Monitor.store, h]
  simp only [Monitor.listForSweep, bind, StateT.bind, hstore]
  cases answer <;> rfl

/-- When the store answers who lists, its sweep takes over the flight, or nobody has it. -/
theorem IsOrderly.take_listed (ht : t.IsOrderly) (hw : who ∈ t.listing)
    (h : m.surroundings.store.channels t.session.world = (answer, world)) :
    t.take m (.listed who) = (⟨{ t.session with world := world },
      if answer.isOk then t.flight else .free, [], if answer.isOk then [who] else []⟩,
        some (answer.mapError .store)) := by
  obtain ⟨hl, hs⟩ := ht.of_mem_listing hw
  simp only [take, listForSweep_eq h, hl, hs, List.mem_singleton, if_true, List.erase_cons_head]
  cases answer <;> rfl

end Listing

/-- When a sweep ends, nobody has the flight. -/
theorem IsOrderly.take_swept (ht : t.IsOrderly) (hw : who ∈ t.sweeping) :
    t.take m (.swept who) = (⟨t.session, .free, [], []⟩, none) := by
  obtain ⟨hl, hs⟩ := ht.of_mem_sweeping hw
  simp only [take, hl, hs, List.mem_singleton, if_true, List.erase_cons_head]
  rfl

/-- Nor when who lists goes away. -/
theorem IsOrderly.take_leave (ht : t.IsOrderly) (hw : who ∈ t.listing) :
    t.take m (.leave who) = (⟨t.session, .free, [], []⟩, none) := by
  obtain ⟨hl, hs⟩ := ht.of_mem_listing hw
  simp only [take, hl, hs, List.mem_singleton, if_true, List.erase_cons_head]
  rfl

/-- Every turn keeps order. -/
theorem IsOrderly.take (ht : t.IsOrderly) (turn : Turn σ) : (t.take m turn).1.IsOrderly := by
  cases turn with
  | call who =>
    cases hf : t.flight.held with
    | true => rwa [take_call_of_held hf]
    | false =>
      rw [take_call_of_free hf]
      have hnone : t.holders.length = 0 := by rw [ht, hf, Bool.toNat_false]
      simpa [IsOrderly, holders] using hnone
  | listed who =>
    by_cases hw : who ∈ t.listing
    · have hheld := ht.held_of_mem (List.mem_append_left _ hw)
      rw [ht.take_listed hw rfl]
      cases (m.surroundings.store.channels t.session.world).1 with
      | error message => rfl
      | ok channels => simp [IsOrderly, holders, Except.isOk, Except.toBool, hheld]
    · simpa only [Traffic.take, if_neg hw] using ht
  | leave who =>
    by_cases hw : who ∈ t.listing
    · rw [ht.take_leave hw]
      rfl
    · simpa only [Traffic.take, if_neg hw] using ht
  | swept who =>
    by_cases hw : who ∈ t.sweeping
    · rw [ht.take_swept hw]
      rfl
    · simpa only [Traffic.take, if_neg hw] using ht
  | elsewhere session => exact ht

theorem IsOrderly.after (ht : t.IsOrderly) (turns : List (Turn σ)) :
    (t.after m turns).IsOrderly := by
  induction turns generalizing t with
  | nil => exact ht
  | cons turn turns ih => exact ih (ht.take turn)

/-- Only a call that has just begun is refused. -/
theorem exists_call_of_refused {turn : Turn σ}
    (h : (t.take m turn).2 = some (.error .alreadySweeping)) : ∃ who, turn = .call who := by
  cases turn with
  | call who => exact ⟨who, rfl⟩
  | listed who =>
    by_cases hw : who ∈ t.listing
    · rcases hs : m.surroundings.store.channels t.session.world with ⟨answer, world⟩
      simp only [take, hw, if_true, listForSweep_eq hs, Option.some.injEq] at h
      cases answer <;> cases h
    · simp only [take, hw, if_false] at h
      cases h
  | leave who | swept who =>
    simp only [take] at h
    split at h <;> cases h
  | elsewhere session => cases h

/-- What a call does that nobody interrupts. -/
theorem take_call_listed (h : t.flight.held = false) (who : Nat) :
    let out := (t.take m (.call who)).1.take m (.listed who)
    ((out.2, out.1.flight), out.1.session) =
      ((some (m.beginSweep t.flight t.session).1.1, (m.beginSweep t.flight t.session).1.2),
        (m.beginSweep t.flight t.session).2) := by
  have hbegin : m.beginSweep t.flight = m.listForSweep ⟨true⟩ := by
    rw [Monitor.beginSweep_eq, Flight.acquire?, if_neg (by simp [h])]
  rw [take_call_of_free h, hbegin]
  simp only [take, List.mem_cons_self, if_true]
  rfl

/-! ## Every course of events -/

/-- Whoever calls, and whatever happens in whatever order: nobody shares the flight, and it
is held exactly while somebody lists or sweeps. A call is refused exactly if it finds the
flight held, and then changes nothing. A call that finds it free does what
`Monitor.beginSweep` does if nothing happens in between. When the store answers who lists,
the call fails with the failure of the store and leaves the flight free, or its sweep begins
and keeps the flight until it ends. -/
theorem flight_after (m : Monitor σ) (session : Session σ) (turns : List (Turn σ)) :
    let t := (start session).after m turns
    t.holders.length ≤ 1 ∧ (t.flight.held = true ↔ t.holders ≠ []) ∧
      (∀ who,
        ((t.take m (.call who)).2 = some (.error .alreadySweeping) ↔ t.holders ≠ []) ∧
        (t.holders ≠ [] → (t.take m (.call who)).1 = t) ∧
        (t.holders = [] →
          (t.take m (.call who)).2 = none ∧ (t.take m (.call who)).1.holders = [who] ∧
          let out := (t.take m (.call who)).1.take m (.listed who)
          ((out.2, out.1.flight), out.1.session) =
            ((some (m.beginSweep t.flight t.session).1.1, (m.beginSweep t.flight t.session).1.2),
              (m.beginSweep t.flight t.session).2))) ∧
      (∀ turn, (t.take m turn).2 = some (.error .alreadySweeping) → ∃ who, turn = .call who) ∧
      (∀ who ∈ t.listing, ∀ world,
        (∀ message, m.surroundings.store.channels t.session.world = (.error message, world) →
          t.take m (.listed who) = (⟨{ t.session with world := world }, .free, [], []⟩,
            some (.error (.store message)))) ∧
        ∀ channels, m.surroundings.store.channels t.session.world = (.ok channels, world) →
          t.take m (.listed who) = (⟨{ t.session with world := world }, t.flight, [], [who]⟩,
            some (.ok channels))) ∧
      (∀ who ∈ t.listing, (t.take m (.leave who)).1 = ⟨t.session, .free, [], []⟩) ∧
      ∀ who ∈ t.sweeping, (t.take m (.swept who)).1 = ⟨t.session, .free, [], []⟩ := by
  intro t
  have ht : t.IsOrderly := IsOrderly.after (t := start session) rfl turns
  have free_of_nil (h : t.holders = []) : t.flight.held = false := by
    rw [← Bool.not_eq_true, ht.held_iff, not_not, h]
  refine ⟨?_, ht.held_iff, fun who => ⟨⟨fun h => ?_, fun h => ?_⟩, fun h => ?_, fun h => ?_⟩,
    fun turn => exists_call_of_refused, fun who hw world => ⟨fun message h => ?_,
      fun channels h => ?_⟩, fun who hw => ?_, fun who hw => ?_⟩
  · rw [ht]
    exact Bool.toNat_le _
  · intro hnil
    rw [take_call_of_free (free_of_nil hnil)] at h
    cases h
  · rw [take_call_of_held (ht.held_iff.mpr h)]
  · rw [take_call_of_held (ht.held_iff.mpr h)]
  · have hf := free_of_nil h
    refine ⟨by rw [take_call_of_free hf], ?_, take_call_listed hf who⟩
    rw [take_call_of_free hf]
    exact congrArg (who :: ·) h
  · exact ht.take_listed hw h
  · exact ht.take_listed hw h
  · rw [ht.take_leave hw]
  · rw [ht.take_swept hw]

end Traffic

end Switchboard.Health
