import Switchboard.Gateway.Incoming
import Switchboard.Gateway.Messages
import Switchboard.Gateway.Route
import Switchboard.Health.Monitor
import Switchboard.Http.Form
import Switchboard.Registry

/-!
# The server

Requests for messages and chat completions go to the first enabled channel that serves
their model. Channels can be tested, one or all of them, and the gateway can say that it
is alive. A request that fails is answered with an error in the shape of its protocol;
one that no endpoint takes, or that cannot be read, with a bare status.
-/

namespace Switchboard.Gateway

open Health (Flight Monitor)

variable {σ : Type} [Tokenizer]

/-- What an answer carries. -/
inductive Payload where
  | empty
  | json (value : Json)
  | events (text : String)
  deriving DecidableEq, Repr

/-- An answer of the gateway. -/
structure Outgoing where
  status : Nat
  payload : Payload
  deriving DecidableEq, Repr

namespace Outgoing

/-- An answer without a payload. -/
def bare (status : Nat) : Outgoing := ⟨status, .empty⟩

/-- A value, as an answer without fault. -/
def ok (v : Json) : Outgoing := ⟨200, .json v⟩

/-- The content type of the payload. -/
def contentType? (o : Outgoing) : Option String :=
  match o.payload with
  | .empty => none
  | .json _ => some "application/json"
  | .events _ => some "text/event-stream"

/-- Streams are not to be kept by caches. -/
def cacheControl? (o : Outgoing) : Option String :=
  match o.payload with
  | .events _ => some "no-cache"
  | _ => none

end Outgoing

/-! ## Routing requests to channels -/

/-- The handles of the channels that have one, by id. Of two channels with one id, the
later one counts. -/
def handlesOf (network : Network σ) (relay : RelaySettings) (channels : List Channel) :
    List (Nat × Handle σ) :=
  (channels.filterMap fun c =>
    match Handle.ofChannel network relay c with
    | .ok h => some (c.id, h)
    | .error _ => none).reverse

/-- The handle of the channel that serves a model at present. -/
def handleFor (handles : List (Nat × Handle σ)) (registry : Registry) (model : String) :
    Except Error (Handle σ) :=
  match registry.select? model with
  | none => .error (.channel ("no available channel for model " ++ model))
  | some id =>
    match handles.lookup id with
    | some h => .ok h
    | none => .error (.channel ("channel " ++ toString id ++ " is not available"))

/-- What the gateway answers requests with. The registry is a part of the world. -/
structure Server (σ : Type) where
  settings : ServerSettings
  policy : Policy
  handles : List (Nat × Handle σ)
  registry : σ → Registry
  monitor : Monitor σ

/-- The server that settings describe. -/
def Server.ofSettings (s : Settings) (around : Health.Surroundings σ) (registry : σ → Registry) :
    Server σ where
  settings := s.server
  policy := .ofSettings s.relay
  handles := handlesOf around.network s.relay s.channels
  registry := registry
  monitor := ⟨around, s.relay, s.health⟩

namespace Server

/-- The handle for a model, in the present state. -/
def handle (s : Server σ) (model : String) : Action σ (Handle σ) := do
  let session ← get
  Action.ofExcept (handleFor s.handles (s.registry session.world) model)

/-! ## Messages -/

/-- Messages: a whole answer, or the frames of a stream. -/
def messages (s : Server σ) (r : Claude.Request) : Action σ Outgoing := do
  let h ← s.handle r.model
  if r.isStream then
    let stream ← openStream s.policy h r
    let relayed := stream.relay (← Action.now) ⟨[], none, none⟩
    return ⟨200, .events (String.join (relayed.client.taken.map Claude.Event.frame))⟩
  else return .ok (← message s.policy h r).toJson

/-! ## Chat completions -/

/-- A payload as a server-sent event. -/
def dataFrame (data : String) : String := "data: " ++ data ++ "\n\n"

/-- The error that stands in a stream. -/
def streamedError (e : Error) : Json := .object
  [("error", .object
    [("code", Json.orNull .string e.code), ("message", .string e.clientMessage),
      ("type", .string e.kind)])]

/-- The frames of a chat stream, with the closing mark at its end. -/
def chatFrames : List (Arrival Chat.Chunk) → String
  | [] => dataFrame closingMark
  | .item chunk :: rest => dataFrame chunk.toJson.render ++ chatFrames rest
  | .failed e :: rest => dataFrame (streamedError e).render ++ chatFrames rest
  | .silence :: _ => ""

/-- Chat completions: a whole answer, or the frames of a stream. -/
def chatCompletions (s : Server σ) (r : Chat.Request) : Action σ Outgoing := do
  let h ← s.handle r.model
  if r.stream then return ⟨200, .events (chatFrames (← h.chatStream r))⟩
  else return .ok (← h.chat r).toJson

/-! ## Tests of channels -/

/-- The status of the answer to a test that failed. -/
def failureStatus : Health.Failure → Nat
  | .noSuchChannel _ => 404
  | .alreadySweeping => 409
  | _ => 500

/-- Whether something was done, and what there is to say about it. -/
def outcomeJson (success : Bool) (message : String) : Json :=
  .object [("success", .bool success), ("message", .string message)]

/-- The answer to a test or a sweep that failed. -/
def failed (f : Health.Failure) : Outgoing :=
  ⟨failureStatus f, .json (outcomeJson false f.message)⟩

/-- How a test came out, with its time in seconds. -/
def testResultJson (r : Health.TestResult) : Json := .object
  [("success", .bool r.success), ("message", .string r.message),
    ("time", ((Health.binarySeconds r.elapsed).map fun x => Json.number (.binary x)).getD .null)]

/-- A number that is written in decimal digits, perhaps behind a plus sign. -/
def decimal? (cs : List Char) : Option Nat :=
  let ds := match cs with
    | '+' :: rest => rest
    | _ => cs
  match Numeral.digits ds with
  | (d :: digits, []) =>
    let n := Numeral.decimalValue (d :: digits)
    if n ≤ Json.u64Max then some n else none
  | _ => none

/-- The id in a path. -/
def channelId? (segment : String) : Option Nat :=
  (Text.Utf8.text? (Http.percentDecode segment.toList)).bind fun s => decimal? s.toList

/-- The model that a query asks for; nothing if it asks twice. -/
def askedModel? (query : Option String) : Option (Option String) :=
  match (Http.formPairs (query.getD "")).filter fun p => p.1 == "model" with
  | [] => some none
  | [(_, model)] => some (some model)
  | _ => none

/-- Test the channel whose id is in the path. -/
def testChannel (s : Server σ) (segment : String) (query : Option String) :
    StateM (Session σ) Outgoing := do
  match channelId? segment, askedModel? query with
  | some id, some model =>
    match ← (s.monitor.test id model).run with
    | .ok result => return .ok (testResultJson result)
    | .error f => return failed f
  | _, _ => return .bare 400

/-! ## Endpoints -/

/-- What a request can be for. -/
inductive Endpoint where
  | messages
  | chatCompletions
  | sweep
  | test (segment : String)
  | alive
  deriving DecidableEq, Repr

/-- The endpoint at the end of a route, for what the parameters of the route stand for. -/
structure Mount where
  route : Route
  method : String
  endpoint : List String → Endpoint

/-- The endpoints of a server. -/
def mounts (s : ServerSettings) : List Mount :=
  [⟨Route.fixed "/v1/messages", "POST", fun _ => .messages⟩,
    ⟨Route.fixed "/v1/chat/completions", "POST", fun _ => .chatCompletions⟩,
    ⟨Route.fixed "/api/channel/test", "GET", fun _ => .sweep⟩,
    ⟨Route.fixed "/api/channel/test/" ++ [.parameter], "GET",
      fun values => .test (values.headD "")⟩] ++
  (if s.healthEnabled then [⟨Route.ofPattern s.healthPath, "GET", fun _ => .alive⟩] else [])

/-- The endpoints at a path, with their methods: those on the first of its routes. -/
def endpointsAt (s : ServerSettings) (path : String) : List (String × Endpoint) :=
  let taken := (mounts s).filterMap fun m =>
    (Route.capture? m.route path.toList).map fun values => (m, values)
  let first := taken.filter fun t =>
    !taken.any fun other => Route.precedes other.1.route t.1.route
  first.map fun (m, values) => (m.method, m.endpoint values)

/-- The endpoint of a request, or the status that says why there is none. -/
def endpoint (s : ServerSettings) (r : Incoming) : Except Nat Endpoint :=
  match endpointsAt s r.path with
  | [] => .error 404
  | endpoints =>
    match endpoints.lookup (if r.method = "HEAD" then "GET" else r.method) with
    | some e => .ok e
    | none => .error 405

/-- Answer a request with a body; an error is written in the shape of its protocol. -/
def answerWith {α : Type} (form : Form α) (r : Incoming) (answer : α → Action σ Outgoing)
    (shape : Error → Json) : StateM (Session σ) Outgoing := do
  match form.ofRequest r with
  | .error status => return .bare status
  | .ok a =>
    match ← (answer a).run with
    | .ok out => return out
    | .error e => return ⟨e.status, .json (shape e)⟩

/-- An answer, the flight after it, and the channels of a sweep that it leaves to be done. -/
structure Served where
  answer : Outgoing
  flight : Flight
  sweep : Option (List Channel)

/-- Answer a request in full. -/
def serveInFull (s : Server σ) (flight : Flight) (r : Incoming) : StateM (Session σ) Served := do
  match endpoint s.settings r with
  | .error status => return ⟨.bare status, flight, none⟩
  | .ok .messages =>
    return ⟨← answerWith .messages r s.messages fun e => e.toClaude.toJson, flight, none⟩
  | .ok .chatCompletions =>
    return ⟨← answerWith .chatCompletions r s.chatCompletions Error.toChatJson, flight, none⟩
  | .ok (.test segment) => return ⟨← s.testChannel segment r.query, flight, none⟩
  | .ok .alive => return ⟨.bare 200, flight, none⟩
  | .ok .sweep =>
    match ← s.monitor.beginSweep flight with
    | (.ok channels, flight) => return ⟨.ok (outcomeJson true ""), flight, some channels⟩
    | (.error f, flight) => return ⟨failed f, flight, none⟩

/-- Answer a request. Who asks for the head only gets nothing else. -/
def serve (s : Server σ) (flight : Flight) (r : Incoming) : StateM (Session σ) Served := do
  let served ← s.serveInFull flight r
  if r.method = "HEAD" then return { served with answer := .bare served.answer.status }
  else return served

end Server

end Switchboard.Gateway
