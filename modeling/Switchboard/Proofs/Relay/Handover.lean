import Switchboard.Proofs.Relay.Delivery
import Switchboard.Relay.Handover

/-!
# Turns of a reader, a loop and a clock

Whatever the order of turns, fragments come to the relay in order and none comes twice : what
the relay was given, what waits in the queue, what was reported and what is unread make up the
stream (`script_after`).

`Delivery.loop` is given the arrivals of a stream one after another. The loop of a `Handover`
does what `Delivery.loop` does to the part of the stream that it has heard of (`heard`) : all of
it, or the fragments that the relay was given and then a failure. The latter is the one that the
reader reported, or else the time limit has run out (`follows_after`). So much is said of single
turns, by what a turn can come to (`Reads`, `Looks`), and the rest follows by induction
(`after_induction`).
-/

namespace Switchboard.Delivery.Handover

variable {ρ φ : Type} {h h' : Handover ρ φ}

/-- The loop has not come to its end. -/
def Going (h : Handover ρ φ) : Prop := ∀ failure, h.stage ≠ .ended failure

theorem not_going_iff : ¬ h.Going ↔ ∃ failure, h.stage = .ended failure :=
  not_forall_not

/-- What the reader was to read : what the relay was given, what waits for the loop, what was
reported, and what is unread. -/
def script (h : Handover ρ φ) : List (Arrival φ) :=
  (h.given ++ h.queue).map .item ++ ((h.reported.map .failed).toList ++ h.unread)

/-- What the loop has heard of the stream by its end : all of it, or the fragments that the relay
was given, and a failure. Until then it is as if there were silence behind these. -/
def heard (h : Handover ρ φ) : List (Arrival φ) :=
  match h.stage with
  | .ended none => h.script
  | .ended (some e) => h.given.map .item ++ [.failed e]
  | _ => h.given.map .item ++ [.silence]

theorem heard_of_finished (ended : h.stage = .ended none) : h.heard = h.script := by
  simp only [heard, ended]

theorem heard_of_failed {e : Error} (ended : h.stage = .ended (some e)) :
    h.heard = h.given.map .item ++ [.failed e] := by
  simp only [heard, ended]

/-! ## The reader -/

/-- The reader has nothing to do. -/
def Idle (h : Handover ρ φ) : Prop :=
  h.hungUp = true ∨ queueCapacity ≤ h.queue.length ∨ ∃ rest, h.unread = .silence :: rest

/-- What a turn of the reader comes to. -/
inductive Reads (h : Handover ρ φ) : Handover ρ φ → Prop
  | idles (idle : h.Idle) : h.Reads h
  | hangsUp (present : ¬ h.hungUp = true) (done : h.reported.isSome ∨ h.unread = []) :
      h.Reads { h with hungUp := true }
  | queues {a : φ} {rest : List (Arrival φ)} (next : h.unread = .item a :: rest)
      (unreported : h.reported = none) (room : h.queue.length < queueCapacity) :
      h.Reads { h with unread := rest, queue := h.queue ++ [a] }
  | reports {e : Error} {rest : List (Arrival φ)} (next : h.unread = .failed e :: rest)
      (unreported : h.reported = none) : h.Reads { h with unread := rest, reported := some e }

theorem reads_read (h : Handover ρ φ) : h.Reads h.read := by
  unfold read
  split
  case isTrue gone => exact .idles (.inl gone)
  case isFalse present =>
    split
    case isTrue reported => exact .hangsUp present (.inl reported)
    case isFalse reported =>
      have unreported := Option.not_isSome_iff_eq_none.mp reported
      split
      case h_1 next => exact .hangsUp present (.inr next)
      case h_2 next =>
        split
        case isTrue room => exact .queues next unreported room
        case isFalse full => exact .idles (.inr (.inl (Nat.le_of_not_lt full)))
      case h_3 next => exact .reports next unreported
      case h_4 rest next => exact .idles (.inr (.inr ⟨rest, next⟩))

/-- The reader leaves the loop and the clock alone. -/
theorem Reads.spares (reads : h.Reads h') : h'.given = h.given ∧ h'.relay = h.relay ∧
    h'.client = h.client ∧ h'.stage = h.stage ∧ h'.limit = h.limit ∧ h'.late = h.late := by
  cases reads <;> exact ⟨rfl, rfl, rfl, rfl, rfl, rfl⟩

theorem Reads.script_eq (reads : h.Reads h') : h'.script = h.script := by
  cases reads with
  | idles | hangsUp => rfl
  | queues next unreported =>
    simp only [script, next, unreported, List.map_append, List.map_cons, List.map_nil,
      Option.map_none, Option.toList_none, List.append_assoc, List.cons_append, List.nil_append]
  | reports next unreported =>
    simp only [script, next, unreported, Option.map_none, Option.map_some, Option.toList_none,
      Option.toList_some, List.cons_append, List.nil_append]

/-- A failure that was reported stays. -/
theorem Reads.reported_eq {e : Error} (reads : h.Reads h') (reported : h.reported = some e) :
    h'.reported = some e := by
  cases reads with
  | idles | hangsUp | queues => exact reported
  | reports next unreported => exact absurd (unreported.symm.trans reported) nofun

/-- The reader reads one thing at a time. -/
theorem Reads.length_unread_le (reads : h.Reads h') : h.unread.length ≤ h'.unread.length + 1 := by
  cases reads with
  | idles | hangsUp => exact Nat.le_succ _
  | queues next | reports next => exact Nat.le_of_eq (congrArg List.length next)

/-! ## The loop -/

variable [Relay ρ φ]

theorem give_eq {a : φ} {others : List φ} {c' : Client} {all : Bool}
    (hs : send h.client (Relay.accept a h.relay).2 = (c', all)) : h.give a others =
      { h with
        queue := others
        late := false
        given := h.given ++ [a]
        relay := if all then (Relay.accept a h.relay).1
          else Relay.close (Relay.accept a h.relay).1
        client := c'
        stage := if all && !Relay.isClosed (Relay.accept a h.relay).1 then .waiting
          else .ended none } := by
  simp only [give, hs]

theorem finish_eq {c' : Client} {all : Bool}
    (hs : send h.client (Relay.finish h.relay).2 = (c', all)) : h.finish =
      { h with
        relay := if all then (Relay.finish h.relay).1 else Relay.close (Relay.finish h.relay).1
        client := c'
        stage := .ended none } := by
  simp only [finish, hs]

/-- The loop goes on behind a fragment, or ends without a failure. -/
theorem give_stage (h : Handover ρ φ) (a : φ) (others : List φ) :
    (h.give a others).stage = .waiting ∨ (h.give a others).stage = .ended none := by
  obtain ⟨⟨c', all⟩, hs⟩ := Exists.intro (send h.client (Relay.accept a h.relay).2) rfl
  rw [give_eq hs]
  exact ite_eq_or_eq _ _ _

/-- What a look of the loop comes to. -/
inductive Looks (h : Handover ρ φ) : Handover ρ φ → Prop
  | leaves (stage : h.stage = .waiting) (gone : h.client.isGone = true) :
      h.Looks { h with relay := Relay.close h.relay, stage := .ended none }
  | gives {a : φ} {others : List φ} (stage : h.stage = .waiting) (next : h.queue = a :: others)
      (present : ¬ h.client.isGone = true) : h.Looks (h.give a others)
  | finishes (stage : h.stage = .waiting) (empty : h.queue = []) (hungUp : h.hungUp = true)
      (unreported : h.reported = none) (present : ¬ h.client.isGone = true) : h.Looks h.finish
  | passes (stage : h.stage = .waiting) (empty : h.queue = []) (awaited : ¬ h.hungUp = true)
      (present : ¬ h.client.isGone = true) : h.Looks { h with stage := .unserved }
  | failsAtOnce {e : Error} (stage : h.stage = .waiting) (empty : h.queue = [])
      (reported : h.reported = some e) (present : ¬ h.client.isGone = true) :
      h.Looks { h with stage := .ended (some e) }
  | fails {e : Error} (stage : h.stage = .unserved) (reported : h.reported = some e) :
      h.Looks { h with stage := .ended (some e) }
  | goesOn (stage : h.stage = .unserved) (unreported : h.reported = none) :
      h.Looks { h with stage := .unfailed }
  | expires (stage : h.stage = .unfailed) (late : h.late = true) :
      h.Looks { h with stage := .ended (some (timeout h.limit)) }
  | returns (stage : h.stage = .unfailed) (early : ¬ h.late = true) :
      h.Looks { h with stage := .waiting }

theorem looks_lookForFragment (stage : h.stage = .waiting) : h.Looks h.lookForFragment := by
  unfold lookForFragment
  split
  case isTrue gone => exact .leaves stage gone
  case isFalse present =>
    split
    case h_1 next => exact .gives stage next present
    case h_2 empty =>
      split
      case isTrue hungUp =>
        split
        case h_1 reported => exact .failsAtOnce stage empty reported present
        case h_2 unreported => exact .finishes stage empty hungUp unreported present
      case isFalse awaited => exact .passes stage empty awaited present

theorem looks_lookForFailure (stage : h.stage = .unserved) : h.Looks h.lookForFailure := by
  unfold lookForFailure
  split
  case h_1 reported => exact .fails stage reported
  case h_2 unreported => exact .goesOn stage unreported

theorem looks_lookAtClock (stage : h.stage = .unfailed) : h.Looks h.lookAtClock := by
  unfold lookAtClock
  split
  case isTrue late => exact .expires stage late
  case isFalse early => exact .returns stage early

/-- What is given is no longer in the queue. -/
theorem Looks.script_eq (looks : h.Looks h') : h'.script = h.script := by
  cases looks with
  | leaves | finishes | passes | failsAtOnce | fails | goesOn | expires | returns => rfl
  | @gives a others stage next =>
    have whole : h.script = (h.given ++ a :: others).map .item ++
        ((h.reported.map .failed).toList ++ h.unread) := by rw [script, next]
    rw [whole, List.append_cons]
    rfl

/-! ## Turns -/

theorem take_of_ended {failure : Option Error} (ended : h.stage = .ended failure) (who : Party) :
    h.take who = h := by
  simp only [take, ended]

theorem reads_take (going : h.Going) : h.Reads (h.take .reader) := by
  cases stage : h.stage with
  | ended failure => exact absurd stage (going failure)
  | waiting | unserved | unfailed =>
    simp only [take, stage]
    exact h.reads_read

theorem take_clock (going : h.Going) : h.take .clock = h.ring := by
  cases stage : h.stage with
  | ended failure => exact absurd stage (going failure)
  | waiting | unserved | unfailed => simp only [take, stage]

theorem looks_take (going : h.Going) : h.Looks (h.take .loop) := by
  cases stage : h.stage with
  | ended failure => exact absurd stage (going failure)
  | waiting =>
    simp only [take, stage]
    exact looks_lookForFragment stage
  | unserved =>
    simp only [take, stage]
    exact looks_lookForFailure stage
  | unfailed =>
    simp only [take, stage]
    exact looks_lookAtClock stage

theorem after_append (h : Handover ρ φ) (turns more : List Party) :
    h.after (turns ++ more) = (h.after turns).after more :=
  List.foldl_append

theorem after_concat (h : Handover ρ φ) (turns : List Party) (who : Party) :
    h.after (turns ++ [who]) = (h.after turns).take who :=
  after_append h turns [who]

/-- What every turn keeps holds after all of them. -/
theorem after_induction {P : Handover ρ φ → Prop} (start : P h)
    (reads : ∀ h h', P h → h.Reads h' → P h') (rings : ∀ h, P h → P h.ring)
    (looks : ∀ h h', P h → h.Looks h' → P h') (turns : List Party) : P (h.after turns) := by
  induction turns generalizing h with
  | nil => exact start
  | cons who rest ih =>
    refine ih ?_
    by_cases going : h.Going
    · cases who with
      | reader => exact reads _ _ start (reads_take going)
      | clock => exact take_clock going ▸ rings _ start
      | loop => exact looks _ _ start (looks_take going)
    · obtain ⟨failure, ended⟩ := not_going_iff.mp going
      rwa [take_of_ended ended]

/-- Nothing gets lost in the queue, doubled or out of order. -/
theorem script_after (h : Handover ρ φ) (turns : List Party) :
    (h.after turns).script = h.script :=
  after_induction (P := fun h' => h'.script = h.script) rfl
    (fun _ _ same reads => reads.script_eq.trans same) (fun _ same => same)
    (fun _ _ same looks => looks.script_eq.trans same) turns

/-! ## Comparison with `Delivery.loop` -/

/-- What the loop does agrees with `Delivery.loop`, for a relay and a client to begin with. -/
structure Follows (limit : Nat) (r : ρ) (c : Client) (h : Handover ρ φ) : Prop where
  limited : h.limit = limit
  hangs : h.hungUp = true → h.reported.isSome ∨ h.unread = []
  fits : h.queue.length ≤ queueCapacity
  /-- Until it ends, it is where `Delivery.loop` is after the fragments that were given. -/
  goes : h.Going → ∀ more,
    loop limit (h.given.map .item ++ more) r c = loop limit more h.relay h.client
  stays : h.stage = .unserved ∨ h.stage = .unfailed → ¬ h.client.isGone = true
  ends : h.stage = .ended none → loop limit h.script r c = h.outcome none
  /-- If it fails, it is where `Delivery.loop` is if a failure comes right after them. -/
  fails : ∀ e, h.stage = .ended (some e) →
    (h.reported = some e ∨ e = timeout limit ∧ h.late = true) ∧
      ∀ more, loop limit (h.given.map .item ++ .failed e :: more) r c = h.outcome (some e)

variable {limit : Nat} {r : ρ} {c : Client}

theorem follows_start (limit : Nat) (r : ρ) (c : Client) (arrivals : List (Arrival φ)) :
    (start limit arrivals r c).Follows limit r c where
  limited := rfl
  hangs := nofun
  fits := Nat.zero_le _
  goes _ _ := rfl
  stays h := h.elim nofun nofun
  ends := nofun
  fails := nofun

theorem Follows.of_reads (follows : h.Follows limit r c) (reads : h.Reads h') :
    h'.Follows limit r c := by
  obtain ⟨given, relay, client, stage, limited, late⟩ := reads.spares
  refine ⟨limited.trans follows.limited, fun hungUp => ?_, ?_, ?_, ?_, ?_, fun e ended => ?_⟩
  · cases reads with
    | idles => exact follows.hangs hungUp
    | hangsUp present done => exact done
    | queues next unreported =>
      have := follows.hangs hungUp
      rw [next, unreported] at this
      rcases this with h | h <;> cases h
    | reports => exact .inl rfl
  · cases reads with
    | idles | hangsUp | reports => exact follows.fits
    | queues next unreported room =>
      rw [List.length_append, List.length_singleton]
      exact room
  · rw [Going, given, relay, client, stage]
    exact follows.goes
  · rw [client, stage]
    exact follows.stays
  · rw [reads.script_eq, outcome, relay, client, stage]
    exact follows.ends
  · rw [stage] at ended
    obtain ⟨cause, failed⟩ := follows.fails e ended
    rw [given, outcome, relay, client, late]
    exact ⟨cause.imp_left reads.reported_eq, failed⟩

theorem Follows.of_ring (follows : h.Follows limit r c) : h.ring.Follows limit r c where
  limited := follows.limited
  hangs := follows.hangs
  fits := follows.fits
  goes := follows.goes
  stays := follows.stays
  ends := follows.ends
  fails e ended :=
    ⟨(follows.fails e ended).1.imp_right fun cause => ⟨cause.1, rfl⟩, (follows.fails e ended).2⟩

theorem Follows.loop_script (follows : h.Follows limit r c) (going : h.Going) :
    loop limit h.script r c =
      loop limit (h.queue.map .item ++ ((h.reported.map .failed).toList ++ h.unread)) h.relay
        h.client := by
  rw [script, List.map_append, List.append_assoc, follows.goes going]

/-- The loop may fail where the client is present. -/
theorem Follows.of_failure (follows : h.Follows limit r c) (going : h.Going)
    (present : ¬ h.client.isGone = true) {e : Error}
    (cause : h.reported = some e ∨ e = timeout limit ∧ h.late = true) :
    Follows limit r c { h with stage := .ended (some e) } := by
  refine ⟨follows.limited, follows.hangs, follows.fits, fun open' => absurd rfl (open' _),
    fun h => h.elim nofun nofun, nofun, ?_⟩
  rintro _ ⟨⟩
  exact ⟨cause, fun more => (follows.goes going _).trans (loop_failed present e more)⟩

/-- Nothing changes for a loop that only goes on to look at something else. -/
theorem Follows.of_stage (follows : h.Follows limit r c) (going : h.Going) {stage : Stage}
    (open' : ∀ failure, stage ≠ .ended failure)
    (stays : stage = .unserved ∨ stage = .unfailed → ¬ h.client.isGone = true) :
    Follows limit r c { h with stage } where
  limited := follows.limited
  hangs := follows.hangs
  fits := follows.fits
  goes _ := follows.goes going
  stays := stays
  ends ended := absurd ended (open' _)
  fails _ ended := absurd ended (open' _)

/-- Giving a fragment is a step of `Delivery.loop`. -/
theorem Follows.give (follows : h.Follows limit r c) (stage : h.stage = .waiting) {a : φ}
    {others : List φ} (next : h.queue = a :: others) (present : ¬ h.client.isGone = true) :
    (h.give a others).Follows limit r c := by
  obtain ⟨⟨c', all⟩, hs⟩ := Exists.intro (send h.client (Relay.accept a h.relay).2) rfl
  have going : h.Going := fun _ => stage ▸ nofun
  have fits := follows.fits
  rw [next, List.length_cons] at fits
  have goes (more : List (Arrival φ)) :=
    (follows.goes going (.item a :: more)).trans (loop_item present more hs)
  have ends := follows.loop_script going
  rw [next, List.map_cons, List.cons_append, loop_item present _ hs] at ends
  have same := (Looks.gives stage next present).script_eq
  rw [give_eq hs] at same ⊢
  rw [← same] at ends
  cases all with
  | false =>
    exact ⟨follows.limited, follows.hangs, Nat.le_of_succ_le fits, fun o => absurd rfl (o _),
      fun h => h.elim nofun nofun, fun _ => ends, nofun⟩
  | true =>
    cases closed : Relay.isClosed (Relay.accept a h.relay).1 with
    | true =>
      rw [closed] at ends
      exact ⟨follows.limited, follows.hangs, Nat.le_of_succ_le fits, fun o => absurd rfl (o _),
        fun h => h.elim nofun nofun, fun _ => ends, nofun⟩
    | false =>
      refine ⟨follows.limited, follows.hangs, Nat.le_of_succ_le fits, fun _ more => ?_,
        fun h => h.elim nofun nofun, nofun, nofun⟩
      have goes := goes more
      rw [closed] at goes
      rw [List.map_append, List.append_assoc]
      exact goes

/-- Telling the end is one, too. -/
theorem Follows.finish (follows : h.Follows limit r c) (stage : h.stage = .waiting)
    (empty : h.queue = []) (hungUp : h.hungUp = true) (unreported : h.reported = none)
    (present : ¬ h.client.isGone = true) : h.finish.Follows limit r c := by
  obtain ⟨⟨c', all⟩, hs⟩ := Exists.intro (send h.client (Relay.finish h.relay).2) rfl
  have read : h.unread = [] := by
    rcases follows.hangs hungUp with h | h
    · rw [unreported] at h
      cases h
    · exact h
  have ends := follows.loop_script fun _ => stage ▸ nofun
  rw [empty, unreported, read] at ends
  have same := (Looks.finishes stage empty hungUp unreported present).script_eq
  rw [finish_eq hs] at same ⊢
  rw [← same] at ends
  exact ⟨follows.limited, follows.hangs, follows.fits, fun o => absurd rfl (o _),
    fun h => h.elim nofun nofun, fun _ => ends.trans (loop_nil present hs), nofun⟩

theorem Follows.of_looks (follows : h.Follows limit r c) (looks : h.Looks h') :
    h'.Follows limit r c := by
  cases looks with
  | leaves stage gone =>
    have ends := (follows.loop_script fun _ => stage ▸ nofun).trans (loop_of_gone _ gone)
    exact ⟨follows.limited, follows.hangs, follows.fits, fun o => absurd rfl (o _),
      fun h => h.elim nofun nofun, fun _ => ends, nofun⟩
  | gives stage next present => exact follows.give stage next present
  | finishes stage empty hungUp unreported present =>
    exact follows.finish stage empty hungUp unreported present
  | passes stage empty awaited present =>
    exact follows.of_stage (fun _ => stage ▸ nofun) nofun fun _ => present
  | failsAtOnce stage empty reported present =>
    exact follows.of_failure (fun _ => stage ▸ nofun) present (.inl reported)
  | fails stage reported =>
    exact follows.of_failure (fun _ => stage ▸ nofun) (follows.stays (.inl stage)) (.inl reported)
  | goesOn stage =>
    exact follows.of_stage (fun _ => stage ▸ nofun) nofun fun _ => follows.stays (.inl stage)
  | expires stage late =>
    obtain rfl := follows.limited
    exact follows.of_failure (fun _ => stage ▸ nofun) (follows.stays (.inr stage))
      (.inr ⟨rfl, late⟩)
  | returns stage =>
    exact follows.of_stage (fun _ => stage ▸ nofun) nofun fun h => h.elim nofun nofun

theorem follows_after (limit : Nat) (arrivals : List (Arrival φ)) (r : ρ) (c : Client)
    (turns : List Party) : ((start limit arrivals r c).after turns).Follows limit r c :=
  after_induction (follows_start limit r c arrivals) (fun _ _ => .of_reads) (fun _ => .of_ring)
    (fun _ _ => .of_looks) turns

/-! ## What was heard -/

/-- The loop ends as `Delivery.loop` does on what it has heard of. -/
theorem Follows.loop_heard (follows : h.Follows limit r c) {failure : Option Error}
    (ended : h.stage = .ended failure) : loop limit h.heard r c = h.outcome failure := by
  cases failure with
  | none => exact heard_of_finished ended ▸ follows.ends ended
  | some e => exact heard_of_failed ended ▸ (follows.fails e ended).2 []

/-- A delivery ends as it does on one thread, on what was heard. -/
theorem Follows.of_result? {out : Outcome ρ} (follows : h.Follows limit r c)
    (ended : h.result? = some out) :
    h.stage = .ended out.failure ∧ out = conclude (loop limit h.heard r c) := by
  unfold result? at ended
  split at ended
  case h_1 failure stage =>
    obtain rfl := Option.some.inj ended
    rw [failure_conclude, follows.loop_heard stage]
    exact ⟨stage, rfl⟩
  case h_2 => cases ended

/-- The client has what `Delivery.loop` brings it of what was heard. -/
theorem Follows.client_heard (follows : h.Follows limit r c) :
    (loop limit h.heard r c).client = h.client := by
  by_cases going : h.Going
  · have silent : h.heard = h.given.map .item ++ [.silence] := by
      unfold heard
      split
      case h_1 ended => exact absurd ended (going _)
      case h_2 ended => exact absurd ended (going _)
      case h_3 => rfl
    rw [silent, follows.goes going]
    by_cases gone : h.client.isGone = true
    · rw [loop_of_gone _ gone]
    · rw [loop_silence gone]
  · obtain ⟨failure, ended⟩ := not_going_iff.mp going
    rw [follows.loop_heard ended]
    rfl

/-- What was heard of a stream leads to the first events of the whole. -/
theorem course_heard_isPrefix (limit : Nat) (r : ρ) (h : Handover ρ φ) :
    (course limit h.heard r).2 <+: (course limit h.script r).2 := by
  have behind : h.script = h.given.map .item ++
      (h.queue.map .item ++ ((h.reported.map .failed).toList ++ h.unread)) := by
    rw [script, List.map_append, List.append_assoc]
  unfold heard
  split
  case h_1 => exact List.prefix_refl _
  case h_2 => exact behind ▸ course_isPrefix limit h.given rfl _ r
  case h_3 => exact behind ▸ course_isPrefix limit h.given rfl _ r

end Switchboard.Delivery.Handover
