import Switchboard.Health.Surroundings

/-!
# Reports by webhook

A report is posted to a webhook as its title and its body. It has arrived if the webhook
answers with a success. Without a webhook there is nowhere to deliver to, which is no
failure.
-/

namespace Switchboard.Gateway

/-- The request that posts a report. -/
def webhookRequest (url title body : String) : Http.Request where
  url := url
  query := []
  headers := [("content-type", "application/json")]
  body := .object [("title", .string title), ("body", .string body)]

/-- Deliver a report to the webhook, if there is one. -/
def deliverReport {σ : Type} (network : Network σ) (webhook : Option String) (title body : String)
    (world : σ) : Except String Unit × σ :=
  match webhook with
  | none => (.ok (), world)
  | some url =>
    match network.send (webhookRequest url title body) world with
    | (.error detail, world) => (.error ("webhook request failed: " ++ detail), world)
    | (.ok reply, world) =>
      if reply.isSuccess then (.ok (), world)
      else (.error ("webhook answered " ++ toString reply.status), world)

end Switchboard.Gateway
