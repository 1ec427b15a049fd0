import Mathlib.Order.WellFounded
import Switchboard.Proofs.Relay.Handover

/-!
# A delivery comes to its end

Most turns are of use : something is read, or given to the relay, or the reader hangs up, and
there is less left to do (`work`). The others are those of an idle reader, of the clock, and of a
loop that looks in vain (`Stalls`). If reader and loop get turns again and again, and the clock
does in a stream that falls silent, then the loop comes to its end, whatever else the order of
turns is (`ended_of_fair`). So it can come to it wherever it stands (`exists_ended`).

The outcome of `Delivery.run` is that of one order of turns : the reader reads one thing, and the
loop looks for it (`exists_turns_of_run`).
-/

namespace Switchboard.Delivery

/-- Where the loop looks next if it looks in vain. -/
def Stage.next : Stage → Stage
  | waiting => unserved
  | unserved => unfailed
  | unfailed => waiting
  | ended failure => ended failure

namespace Handover

variable {ρ φ : Type} {h h' : Handover ρ φ}

/-! ## Turns of no use -/

/-- How many turns of use there are at most. -/
def work (h : Handover ρ φ) : Nat :=
  2 * h.unread.length + h.queue.length + if h.hungUp then 0 else 1

/-- What a turn of no use comes to. -/
inductive Stalls (h : Handover ρ φ) : Party → Handover ρ φ → Prop
  | idles (idle : h.Idle) : h.Stalls .reader h
  | rings : h.Stalls .clock h.ring
  | passes (stage : h.stage = .waiting) (empty : h.queue = []) (awaited : ¬ h.hungUp = true) :
      h.Stalls .loop { h with stage := .unserved }
  | goesOn (stage : h.stage = .unserved) : h.Stalls .loop { h with stage := .unfailed }
  | returns (stage : h.stage = .unfailed) (early : ¬ h.late = true) :
      h.Stalls .loop { h with stage := .waiting }

/-- A turn of no use leaves alone what there is to do, and what the clock has done. -/
theorem Stalls.spares {who : Party} (stalls : h.Stalls who h') : h'.unread = h.unread ∧
    h'.queue = h.queue ∧ h'.hungUp = h.hungUp ∧ (h.late = true → h'.late = true) := by
  cases stalls with
  | idles | passes | goesOn | returns => exact ⟨rfl, rfl, rfl, id⟩
  | rings => exact ⟨rfl, rfl, rfl, fun _ => rfl⟩

theorem Stalls.work_eq {who : Party} (stalls : h.Stalls who h') : h'.work = h.work := by
  obtain ⟨unread, queue, hungUp, -⟩ := stalls.spares
  rw [work, work, unread, queue, hungUp]

theorem Stalls.stage_eq {who : Party} (stalls : h.Stalls who h') :
    h'.stage = if who = .loop then h.stage.next else h.stage := by
  cases stalls with
  | idles | rings => rfl
  | passes stage | goesOn stage | returns stage =>
    rw [stage]
    rfl

theorem Stalls.idle (stalls : h.Stalls .reader h') : h.Idle := by
  cases stalls with
  | idles idle => exact idle

theorem Stalls.late (stalls : h.Stalls .clock h') : h'.late = true := by
  cases stalls with
  | rings => rfl

theorem Stalls.of_waiting (stalls : h.Stalls .loop h') (stage : h.stage = .waiting) :
    h.queue = [] ∧ ¬ h.hungUp = true := by
  cases stalls with
  | passes _ empty awaited => exact ⟨empty, awaited⟩
  | goesOn stage' | returns stage' => cases stage.symm.trans stage'

theorem Stalls.of_unfailed (stalls : h.Stalls .loop h') (stage : h.stage = .unfailed) :
    ¬ h.late = true := by
  cases stalls with
  | returns _ early => exact early
  | goesOn stage' | passes stage' => cases stage.symm.trans stage'

theorem Stalls.going (stalls : h.Stalls .loop h') : h.Going := by
  cases stalls with
  | passes stage | goesOn stage | returns stage => exact fun _ => stage ▸ nofun

/-! ## Fair orders of turns -/

/-- A party gets turns again and again. -/
def Recurs (who : Party) (order : ℕ → Party) : Prop := ∀ n, ∃ m, n ≤ m ∧ order m = who

section Forever

variable {states : ℕ → Handover ρ φ} {order : ℕ → Party}

/-- What a turn of no use leaves alone, all of them do. -/
theorem spares_forever (stalls : ∀ n, (states n).Stalls (order n) (states (n + 1))) (n : ℕ) :
    (states n).unread = (states 0).unread ∧ (states n).queue = (states 0).queue ∧
      (states n).hungUp = (states 0).hungUp := by
  induction n with
  | zero => exact ⟨rfl, rfl, rfl⟩
  | succ n ih =>
    obtain ⟨unread, queue, hungUp, -⟩ := (stalls n).spares
    exact ⟨unread.trans ih.1, queue.trans ih.2.1, hungUp.trans ih.2.2⟩

/-- The loop gets a turn where it stands. -/
theorem exists_turn (stalls : ∀ n, (states n).Stalls (order n) (states (n + 1)))
    (recurs : Recurs .loop order) (n : ℕ) :
    ∃ m, n ≤ m ∧ order m = .loop ∧ (states m).stage = (states n).stage := by
  obtain ⟨_, le, turn⟩ := recurs n
  obtain ⟨d, rfl⟩ := Nat.exists_eq_add_of_le le
  induction d generalizing n with
  | zero => exact ⟨n, Nat.le_refl n, turn, rfl⟩
  | succ d ih =>
    by_cases now : order n = .loop
    · exact ⟨n, Nat.le_refl n, now, rfl⟩
    · obtain ⟨m, later, turn, same⟩ := ih (n + 1) (Nat.le_add_right _ _)
        (by rwa [Nat.add_right_comm])
      have stays := (stalls n).stage_eq
      rw [if_neg now] at stays
      exact ⟨m, Nat.le_of_succ_le later, turn, same.trans stays⟩

/-- The loop comes round to every place. -/
theorem exists_turn_iterate (stalls : ∀ n, (states n).Stalls (order n) (states (n + 1)))
    (recurs : Recurs .loop order) (k n : ℕ) :
    ∃ m, n ≤ m ∧ order m = .loop ∧ (states m).stage = Stage.next^[k] (states n).stage := by
  induction k with
  | zero => exact exists_turn stalls recurs n
  | succ k ih =>
    obtain ⟨m, le, turn, same⟩ := ih
    obtain ⟨m', le', turn', same'⟩ := exists_turn stalls recurs (m + 1)
    have next := (stalls m).stage_eq
    rw [if_pos turn, same, ← Function.iterate_succ_apply' Stage.next] at next
    exact ⟨m', Nat.le_trans le (Nat.le_of_succ_le le'), turn', same'.trans next⟩

/-- The loop looks for a fragment, and at the clock, again and again. -/
theorem exists_looks (stalls : ∀ n, (states n).Stalls (order n) (states (n + 1)))
    (recurs : Recurs .loop order) (n : ℕ) :
    (∃ m, n ≤ m ∧ (states m).queue = [] ∧ ¬ (states m).hungUp = true) ∧
      ∃ m, n ≤ m ∧ ¬ (states m).late = true := by
  have fragment {m : ℕ} (turn : order m = .loop) : (states m).stage = .waiting →
      (states m).queue = [] ∧ ¬ (states m).hungUp = true := (turn ▸ stalls m).of_waiting
  have clock {m : ℕ} (turn : order m = .loop) : (states m).stage = .unfailed →
      ¬ (states m).late = true := (turn ▸ stalls m).of_unfailed
  obtain ⟨m₀, le₀, turn₀, same₀⟩ := exists_turn_iterate stalls recurs 0 n
  obtain ⟨m₁, le₁, turn₁, same₁⟩ := exists_turn_iterate stalls recurs 1 n
  obtain ⟨m₂, le₂, turn₂, same₂⟩ := exists_turn_iterate stalls recurs 2 n
  cases stage : (states n).stage with
  | waiting =>
    rw [stage] at same₀ same₂
    exact ⟨⟨m₀, le₀, fragment turn₀ same₀⟩, m₂, le₂, clock turn₂ same₂⟩
  | unserved =>
    rw [stage] at same₁ same₂
    exact ⟨⟨m₂, le₂, fragment turn₂ same₂⟩, m₁, le₁, clock turn₁ same₁⟩
  | unfailed =>
    rw [stage] at same₀ same₁
    exact ⟨⟨m₁, le₁, fragment turn₁ same₁⟩, m₀, le₀, clock turn₀ same₀⟩
  | ended failure =>
    rw [stage] at same₀
    exact absurd same₀ ((turn₀ ▸ stalls m₀).going failure)

/-- It does not go on for ever with turns of no use. -/
theorem not_stalls_forever (stalls : ∀ n, (states n).Stalls (order n) (states (n + 1)))
    (reader : Recurs .reader order) (loop : Recurs .loop order)
    (clock : .silence ∈ (states 0).unread → Recurs .clock order) : False := by
  have spares := spares_forever stalls
  obtain ⟨m, -, empty, awaited⟩ := (exists_looks stalls loop 0).1
  rw [(spares m).2.1] at empty
  rw [(spares m).2.2] at awaited
  have silent : .silence ∈ (states 0).unread := by
    obtain ⟨n, -, turn⟩ := reader 0
    have idle := (turn ▸ stalls n).idle
    rw [Idle, (spares n).1, (spares n).2.1, (spares n).2.2, empty] at idle
    rcases idle with hungUp | full | ⟨rest, next⟩
    · exact absurd hungUp awaited
    · exact absurd full (Nat.not_succ_le_zero _)
    · exact next ▸ List.mem_cons_self
  obtain ⟨n, -, turn⟩ := clock silent 0
  have rung : (states (n + 1)).late = true := (turn ▸ stalls n).late
  obtain ⟨m, le, early⟩ := (exists_looks stalls loop (n + 1)).2
  refine early (Nat.le_induction rung (fun k _ late => ?_) m le)
  exact (stalls k).spares.2.2.2 late

end Forever

variable [Relay ρ φ]

/-- A turn is of use, or of none, or the last one. -/
theorem take_cases (going : h.Going) (who : Party) : (h.take who).work < h.work ∨
    h.Stalls who (h.take who) ∨ ∃ failure, (h.take who).stage = .ended failure := by
  cases who with
  | clock => exact take_clock going ▸ .inr (.inl .rings)
  | reader =>
    have reads := reads_take going
    generalize h.take .reader = h' at reads
    cases reads with
    | idles idle => exact .inr (.inl (.idles idle))
    | hangsUp present =>
      refine .inl ?_
      show 2 * h.unread.length + h.queue.length < h.work
      rw [work, if_neg present]
      exact Nat.lt_succ_self _
    | queues next | reports next =>
      refine .inl ?_
      simp only [work, next, List.length_cons, List.length_append, List.length_nil]
      omega
  | loop =>
    have looks := looks_take going
    generalize h.take .loop = h' at looks
    cases looks with
    | leaves | finishes | failsAtOnce | fails | expires => exact .inr (.inr ⟨_, rfl⟩)
    | passes stage empty awaited => exact .inr (.inl (.passes stage empty awaited))
    | goesOn stage => exact .inr (.inl (.goesOn stage))
    | returns stage early => exact .inr (.inl (.returns stage early))
    | @gives a others stage next =>
      obtain ⟨⟨c', all⟩, hs⟩ := Exists.intro (send h.client (Relay.accept a h.relay).2) rfl
      refine .inl ?_
      simp only [give_eq hs, work, next, List.length_cons]
      omega

/-- If reader and loop get turns again and again, and the clock in a stream that falls silent, the
loop comes to its end. -/
theorem ended_of_fair (h : Handover ρ φ) {order : ℕ → Party} (reader : Recurs .reader order)
    (loop : Recurs .loop order) (clock : .silence ∈ h.unread → Recurs .clock order) :
    ∃ n failure, (h.after ((List.range n).map order)).stage = .ended failure := by
  by_contra unended
  push Not at unended
  let states (n : ℕ) : Handover ρ φ := h.after ((List.range n).map order)
  have going (n : ℕ) : (states n).Going := unended n
  have step (n : ℕ) : states (n + 1) = (states n).take (order n) := by
    show h.after ((List.range (n + 1)).map order) = _
    rw [List.range_succ, List.map_append, List.map_singleton, after_concat]
  have steps (n : ℕ) : (states (n + 1)).work < (states n).work ∨
      (states n).Stalls (order n) (states (n + 1)) := by
    rcases take_cases (going n) (order n) with less | stalls | ⟨failure, ended⟩
    · exact .inl (step n ▸ less)
    · exact .inr (step n ▸ stalls)
    · exact absurd ended (step n ▸ going (n + 1) failure)
  -- From the state with the least work on, no turn is of use.
  let least := Function.argmin fun n => (states n).work
  have minimal (n : ℕ) : (states least).work ≤ (states n).work :=
    Function.argmin_le (fun n => (states n).work) n
  have same (n : ℕ) : (states (least + n)).work = (states least).work := by
    induction n with
    | zero => rfl
    | succ n ih =>
      refine Nat.le_antisymm ?_ (minimal _)
      rcases steps (least + n) with less | stalls
      · exact ih ▸ Nat.le_of_lt less
      · exact ih ▸ Nat.le_of_eq stalls.work_eq
  have stalls (n : ℕ) :
      (states (least + n)).Stalls (order (least + n)) (states (least + (n + 1))) :=
    (steps (least + n)).resolve_left fun less =>
      Nat.lt_irrefl _ (same n ▸ same (n + 1) ▸ less)
  have shifted {who : Party} (recurs : Recurs who order) :
      Recurs who fun n => order (least + n) := by
    intro n
    obtain ⟨m, le, turn⟩ := recurs (least + n)
    obtain ⟨d, rfl⟩ := Nat.exists_eq_add_of_le le
    have turn' : order (least + (n + d)) = who := Nat.add_assoc least n d ▸ turn
    exact ⟨n + d, Nat.le_add_right n d, turn'⟩
  refine not_stalls_forever stalls (shifted reader) (shifted loop) fun silent => ?_
  -- What is unread later was unread at first.
  have suffix : (states least).unread <:+ h.unread :=
    after_induction (P := fun h' => h'.unread <:+ h.unread) (List.suffix_refl _)
      (fun _ _ sub reads => by
        cases reads with
        | idles | hangsUp => exact sub
        | queues next | reports next =>
          exact (List.suffix_cons _ _).trans (next ▸ sub))
      (fun _ sub => sub)
      (fun _ _ sub looks => by cases looks <;> exact sub) _
  exact shifted (clock (suffix.subset silent))

/-- The loop can always come to its end, and without the clock unless the stream falls silent. -/
theorem exists_ended (h : Handover ρ φ) : ∃ turns failure,
    (.silence ∉ h.unread → .clock ∉ turns) ∧ (h.after turns).stage = .ended failure := by
  classical
  let order (n : ℕ) : Party :=
    if n % 3 = 0 then .reader
    else if n % 3 = 1 then .loop
    else if .silence ∈ h.unread then .clock else .loop
  have reader : Recurs .reader order := fun n =>
    ⟨3 * n, by omega, if_pos (by omega)⟩
  have loop : Recurs .loop order := fun n =>
    ⟨3 * n + 1, by omega, (if_neg (by omega)).trans (if_pos (by omega))⟩
  have clock (silent : .silence ∈ h.unread) : Recurs .clock order := fun n =>
    ⟨3 * n + 2, by omega,
      (if_neg (by omega)).trans ((if_neg (by omega)).trans (if_pos silent))⟩
  obtain ⟨n, failure, ended⟩ := h.ended_of_fair reader loop clock
  refine ⟨_, failure, fun sound rung => ?_, ended⟩
  obtain ⟨m, -, turn⟩ := List.mem_map.mp rung
  simp only [order, if_neg sound, ite_self] at turn
  split at turn <;> cases turn

/-! ## One thread -/

/-- A loop whose client is gone ends at once. -/
theorem after_of_gone (stage : h.stage = .waiting) (gone : h.client.isGone = true) :
    h.after [.loop] = { h with relay := Relay.close h.relay, stage := .ended none } := by
  show h.take .loop = _
  simp only [take, stage, lookForFragment, gone, if_true]

/-- If nothing has come by then, the time limit runs out. -/
theorem after_silence (stage : h.stage = .waiting) (empty : h.queue = [])
    (awaited : h.hungUp = false) (unreported : h.reported = none)
    (present : h.client.isGone = false) : h.after [.loop, .loop, .clock, .loop] =
      { h with late := true, stage := .ended (some (timeout h.limit)) } := by
  have looked : h.take .loop = { h with stage := .unserved } := by
    simp only [take, stage, lookForFragment, present, empty, awaited, Bool.false_eq_true, if_false]
  have looked' : Handover.take { h with stage := .unserved } .loop =
      { h with stage := .unfailed } := by
    simp only [take, lookForFailure, unreported]
  show ((h.take .loop).take .loop).after [.clock, .loop] = _
  rw [looked, looked']
  rfl

/-- `Delivery.loop` does what the loop does if the reader reads one thing at a time, and the clock
rings in silence only. -/
theorem exists_turns_of_loop (limit : Nat) (arrivals : List (Arrival φ)) (given : List φ) (r : ρ)
    (c : Client) :
    let h : Handover ρ φ := { start limit arrivals r c with given := given }
    ∃ turns failure, (h.after turns).stage = .ended failure ∧
      (h.after turns).outcome failure = loop limit arrivals r c := by
  induction arrivals generalizing given r c with
  | nil =>
    intro h
    by_cases gone : c.isGone = true
    · have left := after_of_gone (h := h) rfl gone
      exact ⟨_, none, by rw [left], by rw [left, loop_of_gone _ gone]; rfl⟩
    · obtain ⟨⟨c', all⟩, hs⟩ := Exists.intro (send c (Relay.finish r).2) rfl
      have told : h.after [.reader, .loop] = { h with hungUp := true }.finish := if_neg gone
      rw [finish_eq hs] at told
      exact ⟨_, none, by rw [told], by rw [told, loop_nil gone hs]; rfl⟩
  | cons arrival rest ih =>
    intro h
    by_cases gone : c.isGone = true
    · have left := after_of_gone (h := h) rfl gone
      exact ⟨_, none, by rw [left], by rw [left, loop_of_gone _ gone]; rfl⟩
    cases arrival with
    | failed e =>
      have failed : h.after [.reader, .reader, .loop] = { h with
          unread := rest, reported := some e, hungUp := true, stage := .ended (some e) } :=
        if_neg gone
      exact ⟨_, some e, by rw [failed], by rw [failed, loop_failed gone]; rfl⟩
    | silence =>
      have expired := after_silence (h := h) rfl rfl rfl rfl (Bool.eq_false_iff.mpr gone)
      exact ⟨_, _, by rw [expired], by rw [expired, loop_silence gone]; rfl⟩
    | item a =>
      obtain ⟨⟨c', all⟩, hs⟩ := Exists.intro (send c (Relay.accept a r).2) rfl
      have gives : h.after [.reader, .loop] =
          { h with
            unread := rest
            given := given ++ [a]
            relay := if all then (Relay.accept a r).1 else Relay.close (Relay.accept a r).1
            client := c'
            stage := if all && !Relay.isClosed (Relay.accept a r).1 then .waiting
              else .ended none } :=
        (if_neg gone).trans (give_eq hs)
      rw [loop_item gone rest hs]
      cases all with
      | false => exact ⟨_, none, by rw [gives]; rfl, by rw [gives]; rfl⟩
      | true =>
        cases closed : Relay.isClosed (Relay.accept a r).1 with
        | true =>
          rw [closed] at gives
          exact ⟨_, none, by rw [gives]; rfl, by rw [gives]; rfl⟩
        | false =>
          rw [closed] at gives
          obtain ⟨turns, failure, ended, same⟩ := ih (given ++ [a]) (Relay.accept a r).1 c'
          refine ⟨[.reader, .loop] ++ turns, failure, ?_, ?_⟩
          · rw [after_append, gives]
            exact ended
          · rw [after_append, gives]
            exact same

theorem result?_of_ended {failure : Option Error} (ended : h.stage = .ended failure) :
    h.result? = some (conclude (h.outcome failure)) := by
  simp only [result?, ended]

/-- The outcome of `Delivery.run` is that of some order of turns. -/
theorem exists_turns_of_run (limit : Nat) (arrivals : List (Arrival φ)) (r : ρ) (c : Client) :
    ∃ turns, ((start limit arrivals r c).after turns).result? = some (run limit arrivals r c) := by
  by_cases atOnce : limit = 0 ∧ ¬ c.isGone = true
  · have expired := after_silence (h := start limit arrivals r c) rfl rfl rfl rfl
      (Bool.eq_false_iff.mpr atOnce.2)
    refine ⟨_, (result?_of_ended (congrArg stage expired)).trans ?_⟩
    rw [expired, run, inTime, if_pos atOnce.1, loop_silence atOnce.2]
    rfl
  · obtain ⟨turns, failure, ended, same⟩ := exists_turns_of_loop limit arrivals [] r c
    have whole : loop limit (inTime limit arrivals) r c = loop limit arrivals r c := by
      unfold inTime
      split
      case isTrue zero =>
        have gone := not_not.mp fun present => atOnce ⟨zero, present⟩
        rw [loop_of_gone _ gone, loop_of_gone _ gone]
      case isFalse => rfl
    refine ⟨turns, (result?_of_ended ended).trans ?_⟩
    rw [run, whole, ← same]

end Handover

end Switchboard.Delivery
