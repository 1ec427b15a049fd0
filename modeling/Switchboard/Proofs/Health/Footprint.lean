import Switchboard.Health.Monitor
import Switchboard.Proofs.Provider.Footprint

/-!
# What a probe touches

A probe asks a provider, reads the watch and writes to the journal; the store of the
channels it leaves alone. So a preorder on worlds that all surroundings but the store keep
to (`Surroundings.Along`) holds between the world before and the world after a probe
(`Monitor.along_timedProbe`), whatever is probed and however long it takes.
-/

namespace Switchboard.Health

variable {σ α : Type} {R : σ → σ → Prop}

/-- Whatever is asked of the surroundings, apart from the store, the world after it is
related to the world before. -/
structure Surroundings.Along (R : σ → σ → Prop) (s : Surroundings σ) : Prop where
  network : s.network.Along R
  journal : ∀ record w, R w (s.journal record w)
  notify : ∀ title body w, R w (s.notify title body w).2
  watch : ∀ w, R w (s.watch w).2
  sleep : ∀ time w, R w (s.sleep time w)

variable [IsPreorder σ R]

theorem along_require {h : Handle σ} {a : Action σ α} (ha : a.Along R) (c : Capability) :
    (h.require c a).Along R := by
  unfold Handle.require
  split
  · exact ha
  · exact Action.along_throw _

namespace Probe

/-! ## Attempts -/

section Attempts

variable {h : Handle σ} (hp : h.provider.Along R)

include hp

theorem along_call (category : Category) (model : String) : (call h category model).Along R := by
  have chats : (call h .chat model).Along R := by
    simp only [call]
    split
    · exact .bind (along_require (hp.chat _) _) fun _ => Action.along_pure _
    · exact .bind (along_require (hp.message _) _) fun _ => Action.along_pure _
  cases category with
  | embeddings => exact .bind (along_require (hp.embed _) _) fun _ => Action.along_pure _
  | image => exact .bind (along_require (hp.draw _) _) fun _ => Action.along_pure _
  | responses =>
    refine .bind (along_require (hp.respond _) _) fun answer => ?_
    split <;> exact Action.along_pure _
  | chat => exact chats
  | unsupported => exact chats

theorem along_firstChatFragment (model : String) (limit : Nat) :
    (firstChatFragment h model limit).Along R := by
  unfold firstChatFragment
  split
  · exact .bind (along_require (hp.chatStream _) _) fun _ => Action.along_ofExcept _
  · refine .bind (along_require (hp.messageStream _) _) fun stream => ?_
    split <;> exact Action.along_ofExcept _

theorem along_callStream (category : Category) (model : String) (limit : Nat) :
    (callStream h category model limit).Along R := by
  cases category with
  | chat => exact along_firstChatFragment hp model limit
  | responses => exact .bind (along_require (hp.respondStream _) _) fun _ =>
      Action.along_ofExcept _
  | embeddings | image | unsupported => exact Action.along_throw _

theorem along_attempts (category : Category) (model : String) (limit : Nat) :
    Along R (attempts h category model limit) := by
  refine .bind (along_call hp category model) fun first => ?_
  cases first with
  | ok usage => exact .pure _
  | error e =>
    simp only
    split
    · exact .bind (along_callStream hp category model limit) fun _ => .pure _
    · exact .pure _

end Attempts

/-! ## The probe -/

variable {s : Surroundings σ}

omit [IsPreorder σ R] in
theorem along_watch (hs : s.Along R) : Along R (watch s) := fun session => hs.watch session.world

omit [IsPreorder σ R] in
theorem along_append (hs : s.Along R) (record : Record) : Along R (append s record) :=
  fun session => hs.journal record session.world

variable [Tokenizer]

theorem along_run (hs : s.Along R) (relay : RelaySettings) (health : HealthSettings)
    (c : Channel) (asked : Option String) : Along R (run s relay health c asked) := by
  unfold run
  cases model? c asked with
  | none => exact .pure _
  | some model =>
    cases hh : Handle.ofChannel s.network relay c with
    | error e =>
      dsimp only
      split <;> exact .pure _
    | ok h =>
      have hp := Handle.along_ofChannel hs.network hh
      dsimp only
      split
      · exact .pure _
      · refine .bind (along_watch hs) fun start => .bind (along_attempts hp _ _ _) fun tried => ?_
        refine .bind (along_watch hs) fun stop => .bind (along_append hs _) fun _ => ?_
        split <;> exact .pure _

end Probe

variable [Tokenizer]

/-- The channels may be probed, but only the store changes them. -/
theorem Monitor.along_timedProbe {m : Monitor σ} (hs : m.surroundings.Along R) (c : Channel)
    (asked : Option String) : Along R (m.timedProbe c asked) :=
  .bind (Probe.along_watch hs) fun _ => .bind (Probe.along_run hs _ _ _ _) fun _ =>
    .bind (Probe.along_watch hs) fun _ => .pure _

end Switchboard.Health
