import Switchboard.Health.Probe
import Switchboard.Proofs.Text.Lowercase

/-!
# The mark on the errors of providers

Errors of providers may be marked as theirs. The mark stands in front of the message and changes
nothing else of the error, whatever reads the reply. But messages are searched : for what says that
a credential is not usable, in lower case, and for what shows an event stream. A mark that was
part of such a text, or that began one which the message goes on with, would change what becomes
of a channel. It is not and does not (`isClearOf_providerMark`,
`isClearOf_lowercase_providerMark`), and since it ends in a space, the message becomes behind it
what it becomes by itself in lower case. So the switch is for the eye only
(`ofReplyWith_marked`).
-/

namespace Switchboard.Health

open Probe (eventStreamMarkers showsEventStream)

/-! ## The mark and the texts that are searched for -/

theorem isClearOf_providerMark : ∀ marker ∈ eventStreamMarkers,
    Text.IsClearOf providerMark.toList marker.toList := by
  decide +kernel

theorem isClearOf_lowercase_providerMark : ∀ message ∈ disablingMessages,
    Text.IsClearOf (Text.lowercase providerMark).toList message.toList := by
  decide +kernel

theorem lowercase_providerMark_append (message : String) :
    Text.lowercase (providerMark ++ message) =
      Text.lowercase providerMark ++ Text.lowercase message := by
  have plain : 'Σ' ∉ "Provider API error:".toList := by decide
  exact Text.lowercase_append plain message

/-! ## Marked errors -/

variable (marked : Bool) (e : ProviderError)

theorem isDisabling_mark : isDisabling (e.mark marked) = isDisabling e := by
  cases marked with
  | false => rfl
  | true =>
    have found := Text.any_contains_append isClearOf_lowercase_providerMark
      (Text.lowercase e.message)
    rw [← lowercase_providerMark_append] at found
    simp only [isDisabling, ProviderError.mark, if_true, found]

theorem disables_mark (policy : DisablePolicy) :
    policy.disables (.probe (.provider (e.mark marked))) =
      policy.disables (.probe (.provider e)) := by
  simp only [DisablePolicy.disables, Failure.provider?, Option.any_some, isDisabling_mark]

theorem showsEventStream_mark :
    showsEventStream (.provider (e.mark marked)) = showsEventStream (.provider e) := by
  cases marked with
  | false => rfl
  | true => exact Text.any_contains_append isClearOf_providerMark e.message

/-- Whatever reads a failure reply, the error with the mark is the one without it but for the
mark in front of its message. No policy disables a channel for the one and not for the other, and
no probe is made once more for the one and not for the other. -/
theorem ofReplyWith_marked (read? : List UInt8 → Option ErrorReport) (r : Http.Reply) :
    let plain := ProviderError.ofReplyWith read? false r
    let marked := ProviderError.ofReplyWith read? true r
    marked = { plain with message := "Provider API error: " ++ plain.message } ∧
      (∀ policy : DisablePolicy, policy.disables (.probe (.provider marked)) =
        policy.disables (.probe (.provider plain))) ∧
      showsEventStream (.provider marked) = showsEventStream (.provider plain) := by
  intro plain marked
  have same : marked = plain.mark true := rfl
  rw [same]
  exact ⟨rfl, disables_mark true plain, showsEventStream_mark true plain⟩

/-- A text that the mark could be taken to begin : behind it, in lower case, stands half of what
says that a key is not valid. -/
example :
    let e : ProviderError := ⟨400, "KEY NOT VALID", "", none, none⟩
    isDisabling (e.mark true) = false ∧ isDisabling { e with message := "API KEY NOT VALID" } := by
  decide +kernel

end Switchboard.Health
