import Mathlib.Order.Defs.Unbundled
import Switchboard.Backend.OfChannel

/-!
# What a provider touches

A provider reaches the world through the network and through nothing else. Let a preorder
on worlds hold between the world before and the world after whatever the network is asked
(`Network.Along`). Then it holds before and after every operation of the handle of a
channel (`Handle.along_ofChannel`), however the operation comes out.

A preorder that the network keeps to may say that a part of the world stays what it is,
or that it changes only as others change it.
-/

namespace Switchboard

variable {σ α β : Type} {R : σ → σ → Prop}

/-- A computation leads from every world to a related one. -/
def Along (R : σ → σ → Prop) (a : StateM (Session σ) α) : Prop :=
  ∀ s : Session σ, R s.world (a s).2.world

theorem Along.pure [IsPreorder σ R] (x : α) : Along R (pure x : StateM (Session σ) α) :=
  fun s => refl s.world

theorem Along.bind [IsPreorder σ R] {a : StateM (Session σ) α} {f : α → StateM (Session σ) β}
    (ha : Along R a) (hf : ∀ x, Along R (f x)) : Along R (a >>= f) :=
  fun s => IsTrans.trans _ _ _ (ha s) (hf (a s).1 (a s).2)

theorem Along.mapM [IsPreorder σ R] {f : α → StateM (Session σ) β} {l : List α}
    (hf : ∀ x ∈ l, Along R (f x)) : Along R (l.mapM f) := by
  induction l with
  | nil => exact .pure []
  | cons x rest ih =>
    rw [List.mapM_cons]
    refine .bind (hf x List.mem_cons_self) fun y => .bind (ih fun z hz => ?_) fun ys => .pure _
    exact hf z (List.mem_cons_of_mem x hz)

/-! ## Actions -/

namespace Action

/-- An action leads from every world to a related one, whether it fails or not. -/
def Along (R : σ → σ → Prop) (a : Action σ α) : Prop := Switchboard.Along R a.run

theorem Along.bind [IsPreorder σ R] {a : Action σ α} {f : α → Action σ β} (ha : a.Along R)
    (hf : ∀ x, (f x).Along R) : (a >>= f).Along R := by
  rw [Along, ExceptT.run_bind]
  refine Switchboard.Along.bind ha fun outcome => ?_
  cases outcome with
  | ok x => exact hf x
  | error e => exact .pure _

theorem along_onWorld {f : σ → Except Error α × σ} (hf : ∀ w, R w (f w).2) :
    (onWorld f : Action σ α).Along R :=
  fun s => hf s.world

variable [IsPreorder σ R]

theorem along_pure (x : α) : (pure x : Action σ α).Along R := Along.pure (Except.ok x)

theorem along_throw (e : Error) : (throw e : Action σ α).Along R := Along.pure (Except.error e)

theorem along_ofExcept (x : Except Error α) : (ofExcept x : Action σ α).Along R :=
  fun s => refl s.world

theorem along_now : (now : Action σ Instant).Along R := fun s => refl s.world

theorem along_minting (f : Mint → Except Error α × Mint) : (minting f : Action σ α).Along R :=
  fun s => refl s.world

end Action

/-! ## Calls of the network -/

/-- Whatever the network is asked, the world after it is related to the world before. -/
structure Network.Along (R : σ → σ → Prop) (n : Network σ) : Prop where
  send : ∀ request w, R w (n.send request w).2
  invoke : ∀ call w, R w (n.invoke call w).2
  invokeStream : ∀ call w, R w (n.invokeStream call w).2

namespace Caller

variable [IsPreorder σ R] {c : Caller σ}

theorem along_reply (h : c.network.Along R) (request : Http.Request) :
    (c.reply request).Along R := by
  refine .bind (Action.along_onWorld fun w => h.send request w) fun sent => ?_
  cases sent with
  | error detail => exact Action.along_throw _
  | ok reply =>
    simp only
    split
    · exact Action.along_pure reply
    · exact Action.along_throw _

theorem along_call (h : c.network.Along R) (kind : AnswerKind) (request : Http.Request) :
    (c.call kind request).Along R :=
  .bind (along_reply h request) fun _ => Action.along_ofExcept _

theorem along_stream (h : c.network.Along R) (read : Json → Option α) (request : Http.Request) :
    (c.stream read request).Along R :=
  .bind (along_reply h request) fun _ => Action.along_pure _

end Caller

/-! ## Providers -/

/-- Every operation of a provider leads from every world to a related one. -/
structure Provider.Along (R : σ → σ → Prop) (p : Provider σ) : Prop where
  chat : ∀ r, (p.chat r).Along R
  chatStream : ∀ r, (p.chatStream r).Along R
  message : ∀ r, (p.message r).Along R
  messageStream : ∀ r, (p.messageStream r).Along R
  embed : ∀ r, (p.embed r).Along R
  draw : ∀ r, (p.draw r).Along R
  respond : ∀ r, (p.respond r).Along R
  respondStream : ∀ r, (p.respondStream r).Along R

section Providers

variable [IsPreorder σ R] {network : Network σ}

theorem Provider.along_bare (name : String) : (Provider.bare name : Provider σ).Along R where
  chat _ := Action.along_throw _
  chatStream _ := Action.along_throw _
  message _ := Action.along_throw _
  messageStream _ := Action.along_throw _
  embed _ := Action.along_throw _
  draw _ := Action.along_throw _
  respond _ := Action.along_throw _
  respondStream _ := Action.along_throw _

theorem ChatBackend.along_provider (h : network.Along R) (b : ChatBackend) (marked : Bool) :
    (b.provider network marked).Along R :=
  { Provider.along_bare b.name with
    chat := fun _ => Caller.along_call h _ _
    chatStream := fun _ => Caller.along_stream h _ _
    embed := fun _ => Caller.along_call h _ _
    draw := fun _ => Caller.along_call h _ _
    respond := fun _ => Caller.along_call h _ _
    respondStream := fun _ => Caller.along_stream h _ _ }

theorem MessagesBackend.along_provider (h : network.Along R) (b : MessagesBackend)
    (marked : Bool) : (b.provider network marked).Along R :=
  { Provider.along_bare b.name with
    message := fun _ => Caller.along_call h _ _
    messageStream := fun _ => .bind (Caller.along_stream h _ _) fun _ => Action.along_pure _ }

theorem GeminiBackend.along_provider (h : network.Along R) (b : GeminiBackend) (marked : Bool) :
    (b.provider network marked).Along R :=
  { Provider.along_bare b.name with
    chat := fun r => by
      refine .bind (Caller.along_call h _ _) fun answer => ?_
      split
      · exact Action.along_throw _
      · exact .bind Action.along_now fun _ => Action.along_pure _
    chatStream := fun r =>
      .bind (Caller.along_stream h _ _) fun _ =>
        .bind Action.along_now fun _ => Action.along_pure _ }

theorem PredictionBackend.along_provider (h : network.Along R) (b : PredictionBackend)
    (marked : Bool) : (b.provider network marked).Along R :=
  { Provider.along_bare b.name with
    message := fun _ => .bind (Action.along_ofExcept _) fun _ => Caller.along_call h _ _
    messageStream := fun _ => .bind (Action.along_ofExcept _) fun _ =>
      .bind (Caller.along_stream h _ _) fun _ => Action.along_pure _ }

theorem InvocationBackend.along_provider (h : network.Along R) (b : InvocationBackend) :
    (b.provider network).Along R :=
  { Provider.along_bare b.name with
    message := fun _ => .bind (Action.along_ofExcept _) fun _ =>
      .bind (Action.along_onWorld fun w => h.invoke _ w) fun _ => Action.along_ofExcept _
    messageStream := fun _ => .bind (Action.along_ofExcept _) fun _ =>
      .bind (Action.along_onWorld fun w => h.invokeStream _ w) fun _ => Action.along_pure _ }

theorem along_twoProtocolProvider (h : network.Along R) (marked : Bool) (name root key : String) :
    (twoProtocolProvider network marked name root key).Along R :=
  { Provider.along_bare name with
    chat := (ChatBackend.along_provider h _ marked).chat
    chatStream := (ChatBackend.along_provider h _ marked).chatStream
    embed := (ChatBackend.along_provider h _ marked).embed
    message := (MessagesBackend.along_provider h _ marked).message
    messageStream := (MessagesBackend.along_provider h _ marked).messageStream }

theorem along_convertingProvider [Tokenizer] (h : network.Along R) (marked : Bool)
    (name baseUrl key : String) :
    (convertingProvider network marked name baseUrl key).Along R :=
  { Provider.along_bare name with
    chat := (ChatBackend.along_provider h _ marked).chat
    chatStream := (ChatBackend.along_provider h _ marked).chatStream
    embed := (ChatBackend.along_provider h _ marked).embed
    message := fun _ => .bind (Action.along_minting _) fun _ =>
      .bind ((ChatBackend.along_provider h _ marked).chat _) fun _ => Action.along_pure _
    messageStream := fun _ => .bind (Action.along_minting _) fun _ =>
      .bind ((ChatBackend.along_provider h _ marked).chatStream _) fun _ => Action.along_pure _ }

end Providers

/-! ## Handles -/

namespace Handle

variable [IsPreorder σ R] [Tokenizer]

/-- The provider of the handle of a channel reaches the world through the network only. -/
theorem along_ofChannel {network : Network σ} (hn : network.Along R) {relay : RelaySettings}
    {c : Channel} {h : Handle σ} (hh : ofChannel network relay c = .ok h) :
    h.provider.Along R := by
  unfold ofChannel at hh
  split at hh
  · obtain rfl := Except.ok.inj hh
    exact MessagesBackend.along_provider hn _ _
  · obtain rfl := Except.ok.inj hh
    exact along_twoProtocolProvider hn _ _ _ _
  · obtain rfl := Except.ok.inj hh
    exact along_convertingProvider hn _ _ _ _
  · obtain rfl := Except.ok.inj hh
    exact GeminiBackend.along_provider hn _ _
  · cases hk : InvocationKey.ofParts c.keyParts with
    | error e => simp [hk, bind, Except.bind] at hh
    | ok key =>
      rw [hk] at hh
      obtain rfl := Except.ok.inj hh
      exact InvocationBackend.along_provider hn _
  · cases hk : PredictionKey.ofParts c.keyParts with
    | error e => simp [hk, bind, Except.bind] at hh
    | ok key =>
      rw [hk] at hh
      obtain rfl := Except.ok.inj hh
      exact PredictionBackend.along_provider hn _ _
  · split at hh
    · cases hh
    · obtain rfl := Except.ok.inj hh
      exact ChatBackend.along_provider hn _ _
  · split at hh
    · obtain rfl := Except.ok.inj hh
      exact ChatBackend.along_provider hn _ _
    · cases hh

end Handle

end Switchboard
