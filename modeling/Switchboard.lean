import Switchboard.Backend.Answer
import Switchboard.Backend.Call
import Switchboard.Backend.Chat
import Switchboard.Backend.Combined
import Switchboard.Backend.Failure
import Switchboard.Backend.Gemini
import Switchboard.Backend.Hosted
import Switchboard.Backend.Messages
import Switchboard.Backend.Network
import Switchboard.Backend.OfChannel
import Switchboard.Chat.Chunk
import Switchboard.Chat.Request
import Switchboard.Chat.Response
import Switchboard.Claude.Block
import Switchboard.Claude.Event
import Switchboard.Claude.Request
import Switchboard.Claude.Response
import Switchboard.Clock
import Switchboard.Config.Address
import Switchboard.Config.Channel
import Switchboard.Config.Duration
import Switchboard.Config.Environment
import Switchboard.Config.Load
import Switchboard.Config.Settings
import Switchboard.Conversion.ChatToClaude
import Switchboard.Conversion.ChatToGemini
import Switchboard.Conversion.ClaudeToChat
import Switchboard.Conversion.GeminiToChat
import Switchboard.Embedding
import Switchboard.Error
import Switchboard.Gateway.Background
import Switchboard.Gateway.Incoming
import Switchboard.Gateway.Messages
import Switchboard.Gateway.Route
import Switchboard.Gateway.Safety
import Switchboard.Gateway.Server
import Switchboard.Gateway.Webhook
import Switchboard.Gemini.CallId
import Switchboard.Gemini.Request
import Switchboard.Gemini.Response
import Switchboard.Health.Category
import Switchboard.Health.Flight
import Switchboard.Health.Monitor
import Switchboard.Health.Policy
import Switchboard.Health.Probe
import Switchboard.Health.Report
import Switchboard.Health.Schedule
import Switchboard.Health.Surroundings
import Switchboard.Health.Verdict
import Switchboard.Http.Form
import Switchboard.Http.Message
import Switchboard.Http.ServerEvent
import Switchboard.Image
import Switchboard.Json.Basic
import Switchboard.Json.Lexer
import Switchboard.Json.Numeral
import Switchboard.Json.Parser
import Switchboard.Json.Printer
import Switchboard.Json.Record
import Switchboard.Json.Shape
import Switchboard.Number.Binary
import Switchboard.Number.Shortest
import Switchboard.Proofs.Backend.CacheMarkers
import Switchboard.Proofs.Backend.Joined
import Switchboard.Proofs.Chat.Conversation
import Switchboard.Proofs.Chat.Request
import Switchboard.Proofs.Chat.Response
import Switchboard.Proofs.Claude.Block
import Switchboard.Proofs.Claude.Frames
import Switchboard.Proofs.Claude.Message
import Switchboard.Proofs.Claude.Request
import Switchboard.Proofs.Config.Marks
import Switchboard.Proofs.Config.Substitution
import Switchboard.Proofs.Conversion.CallIds
import Switchboard.Proofs.Conversion.FunctionNames
import Switchboard.Proofs.Conversion.History
import Switchboard.Proofs.Conversion.Inputs
import Switchboard.Proofs.Conversion.Payload
import Switchboard.Proofs.Conversion.RoundTrip
import Switchboard.Proofs.Conversion.Schema
import Switchboard.Proofs.Conversion.Streaming
import Switchboard.Proofs.Conversion.Turns
import Switchboard.Proofs.Gateway.Routing
import Switchboard.Proofs.Gateway.Safety
import Switchboard.Proofs.Health.ErrorMark
import Switchboard.Proofs.Health.EventStream
import Switchboard.Proofs.Health.Footprint
import Switchboard.Proofs.Health.History
import Switchboard.Proofs.Health.Interference
import Switchboard.Proofs.Health.Journal
import Switchboard.Proofs.Health.Markdown
import Switchboard.Proofs.Health.Matrix
import Switchboard.Proofs.Health.Overlap
import Switchboard.Proofs.Health.Report
import Switchboard.Proofs.Health.Store
import Switchboard.Proofs.Health.Transition
import Switchboard.Proofs.Http.ServerEvent
import Switchboard.Proofs.Json.Choice
import Switchboard.Proofs.Json.Opening
import Switchboard.Proofs.Json.Passage
import Switchboard.Proofs.Json.ReadBack
import Switchboard.Proofs.Json.Sorted
import Switchboard.Proofs.Json.Survival
import Switchboard.Proofs.Json.Whole
import Switchboard.Proofs.Merging.Agreement
import Switchboard.Proofs.Merging.Arrival
import Switchboard.Proofs.Merging.Calls
import Switchboard.Proofs.Merging.Delivered
import Switchboard.Proofs.Merging.Fidelity
import Switchboard.Proofs.Merging.Input
import Switchboard.Proofs.Merging.Interleaving
import Switchboard.Proofs.Merging.Move
import Switchboard.Proofs.Merging.Passed
import Switchboard.Proofs.Merging.Run
import Switchboard.Proofs.Merging.Speech
import Switchboard.Proofs.Merging.Usage
import Switchboard.Proofs.Merging.WellFormed
import Switchboard.Proofs.Merging.Whole
import Switchboard.Proofs.Message.Content
import Switchboard.Proofs.Message.Grammar
import Switchboard.Proofs.Message.Pieces
import Switchboard.Proofs.Message.Reply
import Switchboard.Proofs.Message.Utterance
import Switchboard.Proofs.Number.Nearest
import Switchboard.Proofs.PerChunk.WellFormed
import Switchboard.Proofs.Provider.Footprint
import Switchboard.Proofs.Registry.History
import Switchboard.Proofs.Registry.Updates
import Switchboard.Proofs.Relay.Action
import Switchboard.Proofs.Relay.Delivered
import Switchboard.Proofs.Relay.Delivery
import Switchboard.Proofs.Relay.ErrorReport
import Switchboard.Proofs.Relay.FinishReason
import Switchboard.Proofs.Relay.Forwarding
import Switchboard.Proofs.Relay.Handover
import Switchboard.Proofs.Relay.LastWait
import Switchboard.Proofs.Relay.Progress
import Switchboard.Proofs.Relay.Simulation
import Switchboard.Proofs.Relay.Usage
import Switchboard.Proofs.Text.Lines
import Switchboard.Proofs.Text.Lowercase
import Switchboard.Proofs.Text.Paragraphs
import Switchboard.Proofs.Wire
import Switchboard.Provider.Adapter
import Switchboard.Provider.Basic
import Switchboard.Provider.Capability
import Switchboard.Registry
import Switchboard.Relay.Basic
import Switchboard.Relay.Delivery
import Switchboard.Relay.Handover
import Switchboard.Relay.Merging
import Switchboard.Relay.PerChunk
import Switchboard.Relay.Verbatim
import Switchboard.Responses
import Switchboard.Text.Blank
import Switchboard.Text.CaseTables
import Switchboard.Text.Hexadecimal
import Switchboard.Text.Lowercase
import Switchboard.Text.MarkTables
import Switchboard.Text.Quoted
import Switchboard.Text.Search
import Switchboard.Text.Utf8
import Switchboard.Tokens
