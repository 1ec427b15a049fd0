import Switchboard.Clock
import Switchboard.Claude.Event
import Switchboard.Config.Settings

/-!
# Background tasks

Coding assistants send housekeeping requests beside their real work. They are known by
their system prompt and answered here with an empty message.
-/

namespace Switchboard.Gateway

/-- What the system prompts of housekeeping requests contain. -/
def backgroundMarkers : List String :=
  ["Summarize this coding conversation",
    "write a 5-10 word title",
    "Analyze if this message indicates a new conversation topic"]

/-- Whether a system text of the request carries a marker. -/
def isBackgroundTask (r : Claude.Request) : Bool :=
  r.systemTexts.any fun text => backgroundMarkers.any (Text.contains text)

/-- An empty message that is finished. -/
def backgroundResponse (model : String) (now : Instant) : Claude.Response where
  id := now.backgroundMessageId
  kind := "message"
  role := .assistant
  content := []
  model := model
  stopReason := some .endTurn
  stopSequence := none
  usage := .of 0 0

/-- The events of an empty message that is finished. -/
def backgroundEvents (model : String) (now : Instant) : List Claude.Event :=
  [.messageStart { Claude.MessageStart.empty now.backgroundMessageId model (.of 0 0) with
      stopReason := some .endTurn },
    .messageStop]

end Switchboard.Gateway
