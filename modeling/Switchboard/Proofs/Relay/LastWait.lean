import Mathlib.Data.List.Basic
import Mathlib.Data.List.Induction
import Switchboard.Proofs.Relay.Progress
import Switchboard.Relay.Merging

/-!
# The last wait of a delivery

A loop that ends without a failure ends as `Delivery.loop` does on the whole stream, and one that
fails as it does on a stream that breaks off behind the fragments that the relay was given.

If a failure was reported, fragments in front of it may still be in the queue. These are fragments
that the reader put there, with the failure right behind them, between the first two looks of the
last wait (`exists_window`). Such a wait is possible, and then a fragment is lost that came before
the failure (`lost_between_looks`). If the reader takes no turn between the two looks nothing is
lost. If there was no report, the clock rang in the last wait (`exists_ring`).
-/

namespace Switchboard.Delivery.Handover

variable {ρ φ : Type} [Relay ρ φ] {h h' : Handover ρ φ}

/-! ## How the last wait begins -/

/-- The loop finds no fragment only if the queue is empty, and looks for a failure then. -/
theorem Looks.of_unserved (looks : h.Looks h') (unserved : h'.stage = .unserved) :
    h.stage = .waiting ∧ h.queue = [] ∧ h' = { h with stage := .unserved } := by
  cases looks with
  | @gives a others =>
    rcases h.give_stage a others with stage | stage <;> cases stage.symm.trans unserved
  | passes stage empty => exact ⟨stage, empty, rfl⟩
  | leaves | finishes | failsAtOnce | fails | goesOn | expires | returns => cases unserved

/-- The loop has looked for a fragment in vain, and has had no turn since. -/
theorem exists_look (waiting : h.stage = .waiting) {turns : List Party}
    (unserved : (h.after turns).stage = .unserved) :
    ∃ before since, turns = before ++ .loop :: since ∧ .loop ∉ since ∧
      (h.after before).stage = .waiting ∧ (h.after before).queue = [] ∧
      (h.after turns).given = (h.after before).given ∧
      (h.after before).unread.length ≤ (h.after turns).unread.length + since.count .reader := by
  induction turns using List.reverseRecOn with
  | nil => exact absurd (waiting.symm.trans unserved) nofun
  | append_singleton turns who ih =>
    rw [after_concat] at unserved ⊢
    have going : (h.after turns).Going := by
      intro failure ended
      rw [take_of_ended ended, ended] at unserved
      cases unserved
    cases who with
    | reader =>
      have reads := reads_take going
      obtain ⟨given, -, -, stage, -⟩ := reads.spares
      obtain ⟨before, since, rfl, noLoop, waits, empty, same, le⟩ := ih (stage.symm.trans unserved)
      refine ⟨before, since ++ [.reader], ?_, ?_, waits, empty, given.trans same, ?_⟩
      · rw [List.append_assoc, List.cons_append]
      · simp [noLoop]
      · have := reads.length_unread_le
        rw [List.count_append, List.count_singleton_self]
        omega
    | clock =>
      rw [take_clock going] at unserved ⊢
      obtain ⟨before, since, rfl, noLoop, waits, empty, same, le⟩ := ih unserved
      refine ⟨before, since ++ [.clock], ?_, ?_, waits, empty, same, ?_⟩
      · rw [List.append_assoc, List.cons_append]
      · simp [noLoop]
      · rw [List.count_append]
        exact Nat.le_trans le (Nat.add_le_add_left (Nat.le_add_right _ _) _)
    | loop =>
      obtain ⟨waits, empty, same⟩ := (looks_take going).of_unserved unserved
      exact ⟨turns, [], rfl, List.not_mem_nil, waits, empty, by rw [same],
        by rw [same]; exact Nat.le_refl _⟩

/-! ## How it ends -/

/-- A loop that has ended took a last turn. -/
theorem exists_last (waiting : h.stage = .waiting) {turns : List Party} {failure : Option Error}
    (ended : (h.after turns).stage = .ended failure) :
    ∃ before later, turns = before ++ .loop :: later ∧ (h.after before).Going ∧
      h.after turns = (h.after before).take .loop := by
  induction turns using List.reverseRecOn with
  | nil => exact absurd (waiting.symm.trans ended) nofun
  | append_singleton turns who ih =>
    rw [after_concat] at ended ⊢
    by_cases going : (h.after turns).Going
    · cases who with
      | reader =>
        obtain ⟨-, -, -, stage, -⟩ := (reads_take going).spares
        exact absurd (stage.symm.trans ended) (going failure)
      | clock =>
        rw [take_clock going] at ended
        exact absurd ended (going failure)
      | loop => exact ⟨turns, [], rfl, going, rfl⟩
    · obtain ⟨earlier, ended'⟩ := not_going_iff.mp going
      rw [take_of_ended ended'] at ended ⊢
      obtain ⟨before, later, rfl, open', same⟩ := ih ended
      exact ⟨before, later ++ [who], by rw [List.append_assoc, List.cons_append], open', same⟩

/-- The loop fails with what was reported, and with an empty queue unless it has just looked for a
fragment. Or it fails because it is late. -/
theorem Looks.of_failed {e : Error} (looks : h.Looks h') (failed : h'.stage = .ended (some e)) :
    h' = { h with stage := .ended (some e) } ∧ (h.reported = some e ∧
      (h.queue = [] ∨ h.stage = .unserved) ∨ e = timeout h.limit ∧ h.late = true) := by
  cases looks with
  | @gives a others =>
    rcases h.give_stage a others with stage | stage <;> cases stage.symm.trans failed
  | failsAtOnce stage empty reported =>
    cases failed
    exact ⟨rfl, .inl ⟨reported, .inl empty⟩⟩
  | fails stage reported =>
    cases failed
    exact ⟨rfl, .inl ⟨reported, .inr stage⟩⟩
  | expires stage late =>
    cases failed
    exact ⟨rfl, .inr ⟨rfl, late⟩⟩
  | leaves | finishes | passes | goesOn | returns => cases failed

/-- What was reported, the reader had read in front of what is unread. -/
theorem unread_of_reported {e : Error} {turns before : List Party}
    (given : (h.after turns).given = (h.after before).given) (empty : (h.after before).queue = [])
    (reported : (h.after turns).reported = some e) : (h.after turns).queue = [] ∨
      (h.after before).unread =
        (h.after turns).queue.map .item ++ .failed e :: (h.after turns).unread := by
  have scripts := (script_after h before).trans (script_after h turns).symm
  rw [script, script, given, empty, reported, List.append_nil, List.map_append, List.append_assoc,
    List.append_cancel_left_eq] at scripts
  cases early : (h.after before).reported with
  | none =>
    rw [early] at scripts
    exact .inr scripts
  | some e' =>
    rw [early] at scripts
    cases queue : (h.after turns).queue with
    | nil => exact .inl rfl
    | cons a others =>
      rw [queue] at scripts
      injection scripts with scripts
      cases scripts

/-- If the loop fails with what was reported and with fragments in the queue, the reader had yet to
read them, and the failure behind them, when the loop looked for a fragment the last time. -/
theorem exists_window (waiting : h.stage = .waiting) {turns : List Party} {e : Error}
    (failed : (h.after turns).stage = .ended (some e)) :
    (e = timeout (h.after turns).limit ∧ (h.after turns).late = true) ∨
      (h.after turns).reported = some e ∧ ((h.after turns).queue = [] ∨
        ∃ before since later, turns = before ++ .loop :: (since ++ .loop :: later) ∧
          .loop ∉ since ∧ (h.after before).stage = .waiting ∧ (h.after before).queue = [] ∧
          (h.after before).unread =
            (h.after turns).queue.map .item ++ .failed e :: (h.after turns).unread ∧
          (h.after turns).queue.length < since.count .reader) := by
  obtain ⟨mid, later, rfl, going, same⟩ := exists_last waiting failed
  rw [same] at failed
  obtain ⟨step, ⟨reported, empty | unserved⟩ | expired⟩ := (looks_take going).of_failed failed
  · exact .inr ⟨by rw [same, step]; exact reported, .inl (by rw [same, step]; exact empty)⟩
  · refine .inr ⟨by rw [same, step]; exact reported, ?_⟩
    obtain ⟨before, since, rfl, noLoop, waits, empty, given, le⟩ := exists_look waiting unserved
    rw [same, step]
    refine (unread_of_reported given empty reported).imp_right fun unread => ?_
    refine ⟨before, since, later, by rw [List.append_assoc, List.cons_append], noLoop, waits,
      empty, unread, ?_⟩
    simp only [unread, List.length_append, List.length_map, List.length_cons] at le
    show (h.after (before ++ .loop :: since)).queue.length < _
    omega
  · exact .inl (by rw [same, step]; exact expired)

/-- If the time limit has run out, the clock rang in this wait. -/
theorem exists_ring (early : h.late = false) {turns : List Party}
    (late : (h.after turns).late = true) : ∃ before later, turns = before ++ .clock :: later ∧
      (h.after before).Going ∧ (h.after turns).given = (h.after before).given := by
  induction turns using List.reverseRecOn with
  | nil => exact absurd (early.symm.trans late) Bool.false_ne_true
  | append_singleton turns who ih =>
    rw [after_concat] at late ⊢
    have earlier (late : (h.after turns).late = true)
        (same : ((h.after turns).take who).given = (h.after turns).given) :
        ∃ before later, turns ++ [who] = before ++ .clock :: later ∧ (h.after before).Going ∧
          ((h.after turns).take who).given = (h.after before).given := by
      obtain ⟨before, later, rfl, going, given⟩ := ih late
      exact ⟨before, later ++ [who], by rw [List.append_assoc, List.cons_append], going,
        same.trans given⟩
    by_cases going : (h.after turns).Going
    · cases who with
      | reader =>
        obtain ⟨given, -, -, -, -, same⟩ := (reads_take going).spares
        exact earlier (same.symm.trans late) given
      | clock =>
        rw [take_clock going]
        exact ⟨turns, [], rfl, going, rfl⟩
      | loop =>
        have looks := looks_take going
        generalize taken : (h.after turns).take .loop = h' at looks late earlier
        cases looks with
        | @gives a others =>
          obtain ⟨⟨c', all⟩, hs⟩ :=
            Exists.intro (send (h.after turns).client
              (Relay.accept a (h.after turns).relay).2) rfl
          rw [give_eq hs] at late
          cases late
        | finishes => exact earlier late rfl
        | leaves | passes | failsAtOnce | fails | goesOn | expires | returns =>
          exact earlier late rfl
    · obtain ⟨failure, ended⟩ := not_going_iff.mp going
      rw [take_of_ended ended] at late
      exact earlier late (by rw [take_of_ended ended])

/-- Whatever the order of turns, the relay is given fragments of the stream in order, and the loop
can still come to its end, without the clock unless the stream falls silent. If it ends without a
failure, it ends as `Delivery.loop` does. If it fails, it ends as if the failure came right behind
the fragments that the relay was given. A failure that was reported has in front of it these
fragments and those in the queue, and the reader read the latter, and the failure, between the first
two looks of the last wait. For any other failure the clock rang in the last wait. -/
theorem ended_after (limit : Nat) (arrivals : List (Arrival φ)) (r : ρ) (c : Client)
    (turns : List Party) :
    let h := (start limit arrivals r c).after turns
    h.script = arrivals ∧ h.queue.length ≤ queueCapacity ∧
      (∃ more failure, (.silence ∉ arrivals → .clock ∉ more) ∧
        (h.after more).stage = .ended failure) ∧
      (h.stage = .ended none → loop limit arrivals r c = h.outcome none) ∧
      ∀ e, h.stage = .ended (some e) →
        (∀ unheard, loop limit (h.given.map .item ++ .failed e :: unheard) r c =
          h.outcome (some e)) ∧
        (arrivals = (h.given ++ h.queue).map .item ++ .failed e :: h.unread ∧
            (h.queue = [] ∨ ∃ before since later,
              turns = before ++ .loop :: (since ++ .loop :: later) ∧ .loop ∉ since ∧
              let b := (start limit arrivals r c).after before
              b.stage = .waiting ∧ b.queue = [] ∧
                b.unread = h.queue.map .item ++ .failed e :: h.unread ∧
                h.queue.length < since.count .reader) ∨
          e = timeout limit ∧ ∃ before later, turns = before ++ .clock :: later ∧
            ((start limit arrivals r c).after before).Going ∧
            h.given = ((start limit arrivals r c).after before).given) := by
  intro h
  have whole : h.script = arrivals := script_after (start limit arrivals r c) turns
  have follows : h.Follows limit r c := follows_after limit arrivals r c turns
  refine ⟨whole, follows.fits, ?_, fun ended => ?_,
    fun e failed => ⟨(follows.fails e failed).2, ?_⟩⟩
  · obtain ⟨more, failure, quiet, ended⟩ := h.exists_ended
    refine ⟨more, failure, fun sound => quiet fun silent => sound ?_, ended⟩
    rw [← whole, script]
    exact List.mem_append_right _ (List.mem_append_right _ silent)
  · rw [← follows.ends ended, whole]
  · rcases exists_window rfl failed with ⟨expired, late⟩ | ⟨reported, window⟩
    · rw [follows.limited] at expired
      exact .inr ⟨expired, exists_ring rfl late⟩
    · refine .inl ⟨?_, window⟩
      rw [← whole, script, reported]
      rfl

/-- A text, and then the connection breaks. -/
def broken : List (Arrival Chat.Chunk) :=
  [.item ⟨"", "", 0, "", [⟨0, { Chat.Delta.empty with content := some "a" }, none⟩], none⟩,
    .failed (.connection "reset by peer")]

/-- The text is given to the relay if the reader takes no turn between the two looks. -/
theorem ended_after_broken :
    let h := (start 1 broken (Relay.Merging.start "m" 1 ⟨0⟩) ⟨[], none, none⟩).after
      [.loop, .loop, .loop, .reader, .loop, .reader, .reader, .loop]
    h.stage = .ended (some (.connection "reset by peer")) ∧ h.given.length = 1 ∧
      loop 1 broken (Relay.Merging.start "m" 1 ⟨0⟩) ⟨[], none, none⟩ =
        h.outcome (some (.connection "reset by peer")) := by
  intro h
  have failed : h.stage = .ended (some (.connection "reset by peer")) := by decide +kernel
  have given : broken = h.given.map .item ++ .failed (.connection "reset by peer") :: [] := by
    decide +kernel
  have same := ((ended_after 1 broken _ _ _).2.2.2.2 _ failed).1 []
  rw [← given] at same
  exact ⟨failed, by decide +kernel, same⟩

/-- The loop looks for a fragment, the text and the failure come, and the loop looks for a
failure. Then the text is lost. -/
theorem lost_between_looks :
    let h := (start 60000000000 broken (Relay.Merging.start "m" 1 ⟨0⟩) ⟨[], none, none⟩).after
      [.loop, .reader, .reader, .loop]
    h.stage = .ended (some (.connection "reset by peer")) ∧ h.given = [] ∧ h.queue.length = 1 ∧
      h.client.taken = [] := by
  decide +kernel

end Switchboard.Delivery.Handover
