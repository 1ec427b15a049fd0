import Switchboard.Config.Load
import Switchboard.Gateway.Server
import Switchboard.Proofs.Json.Sorted
import Switchboard.Proofs.Registry.Updates

/-!
# A configuration that is accepted can be routed

What the loader checks of a channel is all that its backend asks for
(`Channel.exists_handle`), so that every channel has a handle under its id
(`lookup_handlesOf`). What happens to the registry at run time (`Registry.Update`) changes
the status of channels and neither their ids nor their order : each channel stays what it
was configured as, with the status that it was given last (`Registry.channels_run`).

Together, a request for a model goes to the first channel in the configuration that is
enabled by then and serves the model, it fails for want of a channel if there is none, and
it never finds a channel without a handle (`handleFor_run`).
-/

namespace Switchboard

/-! ## What the loader checks -/

/-- Channels without a fault have distinct ids, none of them seen, and no fault of their
own. -/
theorem channelsFault?_eq_none {seen : List Nat} {channels : List Channel}
    (h : channelsFault? seen channels = none) : (channels.map (·.id)).Nodup ∧
      ∀ c ∈ channels, c.id ∉ seen ∧ c.fault? = none := by
  induction channels generalizing seen with
  | nil => simp
  | cons c rest ih =>
    rw [channelsFault?] at h
    split at h
    · cases h
    rename_i unseen
    split at h
    · cases h
    rename_i sound
    obtain ⟨nodup, ofRest⟩ := ih h
    have apart : ∀ d ∈ rest, d.id ≠ c.id ∧ d.id ∉ seen ∧ d.fault? = none := fun d hd => by
      obtain ⟨new, hd⟩ := ofRest d hd
      exact ⟨fun h => new (h ▸ List.mem_cons_self), fun h => new (List.mem_cons_of_mem _ h), hd⟩
    constructor
    · refine List.nodup_cons.mpr ⟨fun h => ?_, nodup⟩
      obtain ⟨d, hd, hid⟩ := List.mem_map.mp h
      exact (apart d hd).1 hid
    · intro d hd
      rcases List.mem_cons.mp hd with rfl | hd
      · exact ⟨by simpa using unseen, sound⟩
      · exact (apart d hd).2

/-- What a channel without a fault has by its kind : a custom one an address, the hosted
ones a key with the right number of parts. -/
theorem Channel.fault?_eq_none {c : Channel} (h : c.fault? = none) :
    (c.kind = .custom → ∃ url, c.baseUrl = some url) ∧
      (c.kind = .bedrock → 3 ≤ c.keyParts.length) ∧
      (c.kind = .vertexAI → c.keyParts.length = 3) := by
  simp only [Channel.fault?] at h
  split_ifs at h with _ custom bedrock vertex
  refine ⟨fun hk => ?_, fun hk => ?_, fun hk => ?_⟩
  · exact Option.ne_none_iff_exists'.mp fun hn => custom ⟨hk, by simp [hn]⟩
  · exact (not_and_not_right.mp bedrock hk).1
  · exact not_and_not_right.mp vertex hk

theorem InvocationKey.exists_ofParts {parts : List String} (h : 3 ≤ parts.length) :
    ∃ key, InvocationKey.ofParts parts = .ok key := by
  match parts, h with
  | region :: id :: secret :: rest, _ => exact ⟨_, rfl⟩

theorem PredictionKey.exists_ofParts {parts : List String} (h : parts.length = 3) :
    ∃ key, PredictionKey.ofParts parts = .ok key := by
  match parts, h with
  | [location, project, token], _ => exact ⟨_, rfl⟩

namespace Registry

/-! ## The channel that a model gets -/

/-- The first channel in the configuration that serves a model and is enabled after
updates. -/
def firstServing? (channels : List Channel) (updates : List Update) (model : String) :
    Option Channel :=
  channels.find? fun c => (after updates c).isEnabled && c.serves model

theorem select?_run {channels : List Channel} (distinct : (channels.map (·.id)).Nodup)
    (updates : List Update) (model : String) :
    ((ofChannels channels).run updates).select? model =
      (firstServing? channels updates model).map (·.id) := by
  rw [select?, channels_run (isDistinct_ofChannels distinct), channels_ofChannels,
    List.find?_map, Option.map_map]
  simp only [firstServing?, Function.comp_def, serves_after, id_after]

end Registry

/-! ## The handles of the channels -/

section Handles

variable {σ : Type} [Tokenizer]

/-- The backend of a channel without a fault can be built. -/
theorem Channel.exists_handle {c : Channel} (h : c.fault? = none) (network : Network σ)
    (relay : RelaySettings) : ∃ handle, Handle.ofChannel network relay c = .ok handle := by
  obtain ⟨custom, bedrock, vertex⟩ := Channel.fault?_eq_none h
  unfold Handle.ofChannel
  cases hk : c.kind
  case custom =>
    obtain ⟨url, hurl⟩ := custom hk
    simp only [hurl]
    exact ⟨_, rfl⟩
  case bedrock =>
    obtain ⟨key, hkey⟩ := InvocationKey.exists_ofParts (bedrock hk)
    simp only [hkey]
    exact ⟨_, rfl⟩
  case vertexAI =>
    obtain ⟨key, hkey⟩ := PredictionKey.exists_ofParts (vertex hk)
    simp only [hkey]
    exact ⟨_, rfl⟩
  -- the other kinds ask for nothing
  all_goals exact ⟨_, rfl⟩

/-- A handle stands under the id of its channel. -/
theorem Gateway.ids_handlesOf (network : Network σ) (relay : RelaySettings)
    (channels : List Channel) : ((handlesOf network relay channels).map (·.1)).Sublist
      (channels.map (·.id)).reverse := by
  rw [handlesOf, List.map_reverse, List.reverse_sublist]
  induction channels with
  | nil => exact List.Sublist.slnil
  | cons c rest ih =>
    rw [List.filterMap_cons]
    cases Handle.ofChannel network relay c with
    | error e => exact ih.cons c.id
    | ok handle => exact ih.cons_cons c.id

/-- A channel with a handle has it under its id, if the ids are distinct. -/
theorem Gateway.lookup_handlesOf {channels : List Channel} {c : Channel} {handle : Handle σ}
    {network : Network σ} {relay : RelaySettings} (distinct : (channels.map (·.id)).Nodup)
    (hc : c ∈ channels) (h : Handle.ofChannel network relay c = .ok handle) :
    (handlesOf network relay channels).lookup c.id = some handle := by
  have unlike := (List.nodup_reverse.mpr distinct).sublist (ids_handlesOf network relay channels)
  refine (lookup_eq_some_iff_mem unlike).mpr (List.mem_reverse.mpr ?_)
  refine List.mem_filterMap.mpr ⟨c, hc, ?_⟩
  simp only [h]

/-! ## Routing -/

omit [Tokenizer] in
/-- Two errors of routing are told apart by their first letter. -/
theorem noChannel_ne_noHandle (model id : String) :
    "no available channel for model " ++ model ≠ "channel " ++ id ++ " is not available" := by
  intro h
  have heads := congrArg (fun s => s.toList.head?) h
  simp at heads

/-- Channels that are accepted can be routed : each of them has a handle. At every time, a
model gets the handle of the first enabled channel that serves it, where a channel has the
status that the registry shows under its id. Without such a channel there is an error that
says so, and no channel is ever found without its handle. -/
theorem Gateway.handleFor_run (network : Network σ) (relay : RelaySettings)
    {channels : List Channel} (accepted : channelsFault? [] channels = none) :
    (∀ c ∈ channels, ∃ handle, Handle.ofChannel network relay c = .ok handle) ∧
      ∀ (updates : List Registry.Update) (model : String),
        let registry := (Registry.ofChannels channels).run updates
        let routed := handleFor (handlesOf network relay channels) registry model
        (∀ c ∈ channels, registry.channel? c.id = some (Registry.after updates c)) ∧
          (∀ c, Registry.firstServing? channels updates model = some c →
            ∃ handle, Handle.ofChannel network relay c = .ok handle ∧ routed = .ok handle) ∧
          (Registry.firstServing? channels updates model = none →
            routed = .error (.channel ("no available channel for model " ++ model))) ∧
          ∀ id : Nat, routed ≠
            .error (.channel ("channel " ++ toString id ++ " is not available")) := by
  obtain ⟨distinct, sound⟩ := channelsFault?_eq_none accepted
  have resolved : ∀ c ∈ channels, ∃ handle, Handle.ofChannel network relay c = .ok handle :=
    fun c hc => Channel.exists_handle (sound c hc).2 network relay
  refine ⟨resolved, fun updates model => ?_⟩
  intro registry routed
  have selected := Registry.select?_run distinct updates model
  have found : ∀ c, Registry.firstServing? channels updates model = some c →
      ∃ handle, Handle.ofChannel network relay c = .ok handle ∧ routed = .ok handle := by
    intro c hc
    have mem := List.mem_of_find?_eq_some hc
    obtain ⟨handle, hh⟩ := resolved c mem
    refine ⟨handle, hh, ?_⟩
    simp only [routed, registry, handleFor, selected, hc, Option.map_some,
      lookup_handlesOf distinct mem hh]
  have missing : Registry.firstServing? channels updates model = none →
      routed = .error (.channel ("no available channel for model " ++ model)) := by
    intro hn
    simp only [routed, registry, handleFor, selected, hn, Option.map_none]
  refine ⟨fun c hc => Registry.channel?_run distinct updates hc, found, missing, ?_⟩
  intro id wrong
  cases hf : Registry.firstServing? channels updates model with
  | some c =>
    obtain ⟨handle, -, ok⟩ := found c hf
    rw [ok] at wrong
    cases wrong
  | none =>
    rw [missing hf] at wrong
    injection wrong with wrong
    injection wrong with wrong
    exact noChannel_ne_noHandle _ _ wrong

end Handles

/-- A hosted channel for one model, and behind it one for every model. -/
def hostedFirst : List Channel :=
  [⟨1, "hosted", .bedrock, "region|id|secret", none, .enabled, 0, none, ["m"]⟩,
    ⟨2, "own", .custom, "", some "http://localhost", .enabled, 0, none, []⟩]

/-- A network without servers. -/
def deadNetwork : Network Unit where
  send _ w := (.error "unreachable", w)
  invoke _ w := (.error (.other "unreachable"), w)
  invokeStream _ w := (.error (.other "unreachable"), w)

/-- Once the hosted channel is disabled, its model goes to the other one. -/
theorem Gateway.handleFor_run_hostedFirst :
    ∃ handle, Handle.ofChannel deadNetwork .default hostedFirst[1] = .ok handle ∧
      handleFor (handlesOf deadNetwork .default hostedFirst)
        ((Registry.ofChannels hostedFirst).run
          [.responseTime 1 7, .status 1 .autoDisabled "slow", .status 3 .enabled ""]) "m" =
        .ok handle := by
  have accepted : channelsFault? [] hostedFirst = none := by decide
  have routed := (handleFor_run deadNetwork .default accepted).2
    [.responseTime 1 7, .status 1 .autoDisabled "slow", .status 3 .enabled ""] "m"
  exact routed.2.1 _ (by decide)

end Switchboard
