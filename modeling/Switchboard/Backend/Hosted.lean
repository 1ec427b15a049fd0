import Switchboard.Backend.Chat
import Switchboard.Conversion.ClaudeToChat
import Switchboard.Provider.Adapter

/-!
# Hosted models

Clouds that host models of the Messages protocol. The model is named beside the body,
and the body names a version of the hosting instead. The request is checked first,
since the clouds answer a bad one in their own terms.
-/

namespace Switchboard

variable {σ : Type}

/-- The members of a checked request, sorted by key, without the ones that hosting sets. -/
def hostedMembers (r : Claude.Request) (without : List String) :
    Except Error (List (String × Json)) := do
  r.check
  match (r.toJsonWith Json.widenReal32).sorted with
  | .object members => return members.filter fun m => !without.contains m.1
  | _ => return []

/-! ## Prediction -/

/-- A project at a location of the predicting cloud, and what opens it. -/
structure PredictionKey where
  location : String
  project : String
  token : String
  deriving DecidableEq, Repr

/-- Read a key of the form `location|project_id|access_token`. -/
def PredictionKey.ofParts (parts : List String) : Except Error PredictionKey :=
  match parts.map Text.trim with
  | [location, project, token] => .ok ⟨location, project, token⟩
  | _ => .error (.internal (some "Vertex AI key must be location|project_id|access_token"))

/-- The host of a location; one location is everywhere. -/
def PredictionKey.host (k : PredictionKey) : String :=
  if k.location = "global" then "https://aiplatform.googleapis.com"
  else "https://" ++ k.location ++ "-aiplatform.googleapis.com"

/-- The predicting cloud, at the address of its models. -/
structure PredictionBackend where
  name : String
  modelsUrl : String
  token : String
  deriving DecidableEq, Repr

namespace PredictionBackend

/-- The version of the hosting. -/
def version : String := "vertex-2023-10-16"

/-- The backend for a key, at an address of its own or at the host of its location. -/
def ofAddress (name : String) (baseUrl : Option String) (k : PredictionKey) :
    PredictionBackend where
  name := name
  modelsUrl := (baseUrl.map (Text.trimEndOf '/')).getD k.host ++ "/v1/projects/" ++ k.project ++
    "/locations/" ++ k.location ++ "/publishers/anthropic/models"
  token := k.token

/-- The body of a request, which says whether the answer is to be streamed. -/
def body (r : Claude.Request) (stream : Bool) : Except Error Json := do
  let members ← hostedMembers r ["model"]
  return .object (insertMember "anthropic_version" (.string version)
    (insertMember "stream" (.bool stream) members))

/-- The request for a method of a model. -/
def request (b : PredictionBackend) (model method : String) (body : Json) : Http.Request :=
  .bearer (b.modelsUrl ++ "/" ++ model ++ ":" ++ method) b.token body

/-- The backend as a provider of messages. -/
def provider (b : PredictionBackend) (network : Network σ) (marked : Bool) : Provider σ :=
  let caller : Caller σ := ⟨network, .messages, marked⟩
  { Provider.bare b.name with
    message := fun r => do
      let body ← Action.ofExcept (body r false)
      caller.call .message (b.request r.model "rawPredict" body)
    messageStream := fun r => do
      let body ← Action.ofExcept (body r true)
      return .events (← caller.stream (fun v => some (Claude.Event.ofJson v))
        (b.request r.model "streamRawPredict" body)) }

end PredictionBackend

/-! ## Invocation -/

/-- A region of the invoking cloud, and what opens it. -/
structure InvocationKey where
  region : String
  accessKeyId : String
  secretAccessKey : String
  sessionToken : Option String
  deriving DecidableEq, Repr

/-- Read a key of the form `region|access_key_id|secret_access_key[|session_token]`. -/
def InvocationKey.ofParts (parts : List String) : Except Error InvocationKey :=
  match parts.map Text.trim with
  | region :: id :: secret :: rest =>
    .ok ⟨region, id, secret, rest.head?.filter fun t => !t.isEmpty⟩
  | _ => .error (.internal (some "Bedrock key must be region|access_key_id|secret_access_key"))

/-- The status that a failure of the invocation service stands for. -/
def invocationStatus : String → Nat
  | "AccessDeniedException" => 403
  | "UnrecognizedClientException" => 401
  | "ResourceNotFoundException" => 404
  | "ThrottlingException" => 429
  | "ValidationException" => 400
  | "ModelTimeoutException" => 504
  | "ServiceUnavailableException" => 503
  | _ => 500

/-- A failure that the service names has a status. Any other is one of the connection. -/
def InvocationFailure.toError : InvocationFailure → Error
  | service code message =>
    let code := code.getD "UnknownError"
    .provider
      ⟨invocationStatus code, message.getD "Unknown error", "upstream_error", some code, none⟩
  | other detail => .connection detail

/-- The invoking cloud, at an address of its own or at that of the region. -/
structure InvocationBackend where
  name : String
  endpoint : Option String
  key : InvocationKey
  deriving DecidableEq, Repr

namespace InvocationBackend

/-- The version of the hosting. -/
def version : String := "bedrock-2023-05-31"

/-- The body of a request. Whether it is to be streamed is said by the method. -/
def body (r : Claude.Request) : Except Error Json := do
  let members ← hostedMembers r ["model", "stream"]
  return .object (insertMember "anthropic_version" (.string version) members)

/-- The invocation of a model. -/
def invocation (b : InvocationBackend) (model : String) (body : Json) : Invocation where
  endpoint := b.endpoint
  region := b.key.region
  accessKeyId := b.key.accessKeyId
  secretAccessKey := b.key.secretAccessKey
  sessionToken := b.key.sessionToken
  model := model
  body := body

/-- The events that parts hold; a part that holds none is skipped. -/
def events : List (Arrival InvocationPart) → List (Arrival Claude.Event)
  | [] => []
  | .item part :: rest =>
    match (part.bind Text.Utf8.text?).bind Json.parse? with
    | some v => .item (Claude.Event.ofJson v) :: events rest
    | none => events rest
  | .failed e :: rest => .failed e :: events rest
  | .silence :: _ => [.silence]

/-- Decode a whole answer. -/
def answer (words : Wording) (model : String) (bytes : List UInt8) : Except Error Claude.Response :=
  match ((Text.Utf8.text? bytes).bind Json.parse?).bind Claude.Response.ofJson? with
  | some a => .ok (a.withModel model)
  | none => .error (.undecodable (words.ofBytes .message bytes))

/-- The backend as a provider of messages. -/
def provider (b : InvocationBackend) (network : Network σ) : Provider σ :=
  { Provider.bare b.name with
    message := fun r => do
      let body ← Action.ofExcept (body r)
      let bytes ← Action.onWorld fun world =>
        let (out, world) := network.invoke (b.invocation r.model body) world
        (out.mapError InvocationFailure.toError, world)
      Action.ofExcept (answer network.wording r.model bytes)
    messageStream := fun r => do
      let body ← Action.ofExcept (body r)
      let parts ← Action.onWorld fun world =>
        let (out, world) := network.invokeStream (b.invocation r.model body) world
        (out.mapError InvocationFailure.toError, world)
      return .events (events parts) }

end InvocationBackend

end Switchboard
