import Switchboard.Config.Settings
import Switchboard.Error
import Switchboard.Text.Lowercase

/-!
# When a channel is disabled

A probe may fail before it reaches the provider, or because of the provider. Only what
the provider itself answers can disable a channel: that the credential or the account is
not usable. Apart from errors, a latency above the threshold disables a channel.
-/

namespace Switchboard.Health

/-- Why a channel could not be probed, or how the probe failed. -/
inductive Failure where
  | alreadySweeping
  | noSuchChannel (id : Nat)
  | noTestModel (id : Nat)
  | unsupportedModel (model : String)
  /-- The store of the channels failed. -/
  | store (message : String)
  /-- The probe itself failed. -/
  | probe (error : Error)
  deriving DecidableEq, Repr

namespace Failure

/-- What is said about a failure. -/
def message : Failure → String
  | alreadySweeping => "a channel sweep is already running"
  | noSuchChannel id => "channel " ++ toString id ++ " does not exist"
  | noTestModel id => "channel " ++ toString id ++ " has no test model"
  | unsupportedModel model => "model " ++ model ++ " cannot be probed"
  | store message => "channel store failure: " ++ message
  | probe error => error.display

/-- What the provider answered, if the probe reached it. -/
def provider? : Failure → Option ProviderError
  | probe (.provider e) => some e
  | _ => none

end Failure

/-- The kinds and codes of errors which say that a credential or an account is not
usable. -/
def disablingCodes : List String :=
  ["invalid_api_key", "authentication_error", "permission_error", "insufficient_quota",
    "account_deactivated", "billing_not_active", "organization_restricted"]

/-- What messages contain that say so, in lower case. -/
def disablingMessages : List String :=
  ["incorrect api key", "invalid api key", "api key not valid", "api key expired",
    "api key has expired", "key is expired", "credit balance is too low",
    "insufficient balance", "exceeded your current quota", "organization has been disabled",
    "security token included in the request is invalid"]

/-- Whether an answer says that the credential or the account is not usable. -/
def isDisabling (e : ProviderError) : Bool :=
  e.status == 401 || e.status == 403 || disablingCodes.contains e.kind ||
    e.code.any disablingCodes.contains ||
    disablingMessages.any (Text.contains (Text.lowercase e.message))

/-- When probes disable channels. Latencies are in nanoseconds; without a threshold none
is too long. -/
structure DisablePolicy where
  autoDisable : Bool
  threshold : Option Nat
  deriving DecidableEq, Repr

namespace DisablePolicy

/-- The policy that settings describe. A threshold of zero is none. -/
def ofSettings (s : HealthSettings) : DisablePolicy where
  autoDisable := s.autoDisable
  threshold := if s.disableThreshold = 0 then none else some s.disableThreshold

/-- Whether a probe took longer than the threshold. -/
def isSlow (p : DisablePolicy) (elapsed : Nat) : Bool := p.threshold.any (· < elapsed)

/-- Whether a failure takes a channel out of rotation. -/
def disables (p : DisablePolicy) (f : Failure) : Bool :=
  p.autoDisable && f.provider?.any isDisabling

end DisablePolicy

end Switchboard.Health
