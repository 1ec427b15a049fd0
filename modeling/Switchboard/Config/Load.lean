import Switchboard.Config.Environment
import Switchboard.Config.Settings

/-!
# Loading a configuration

A configuration is a tree. Its variables are replaced, it is read as settings, and its
channels are checked: their ids differ, they have names, and their keys and addresses
have the shape that their kind needs.
-/

namespace Switchboard

/-- What is wrong with a channel. -/
inductive ChannelFault where
  | repeatedId (id : Nat)
  | emptyName (id : Nat)
  | noBaseUrl (name : String)
  | bedrockKey (name : String)
  | vertexKey (name : String)
  deriving DecidableEq, Repr

/-- What is said about a faulty channel. -/
def ChannelFault.message : ChannelFault → String
  | repeatedId id => "channel id " ++ toString id ++ " is used more than once"
  | emptyName id => "channel " ++ toString id ++ " has an empty name"
  | noBaseUrl name => "channel '" ++ name ++ "' is of type custom and needs a base_url"
  | bedrockKey name => "bedrock channel '" ++ name ++
      "' expects a key of the form region|access_key_id|secret_access_key[|session_token]"
  | vertexKey name => "vertexai channel '" ++ name ++
      "' expects a key of the form location|project_id|access_token"

/-- Why a configuration was not loaded. -/
inductive LoadError where
  | unsetVariable (missing : Environment.Missing)
  | malformed
  | invalid (fault : ChannelFault)
  deriving DecidableEq, Repr

/-- What is said about a configuration that was not loaded. -/
def LoadError.message : LoadError → String
  | unsetVariable m => "At " ++ Environment.pathText m.path ++
      " failed substituting environment variable: environment variable `" ++ m.name ++
      "` is not set"
  | malformed => "Failed to parse configuration file"
  | invalid fault => "Invalid configuration: " ++ fault.message

/-- The first thing that is wrong with a channel, apart from its id. -/
def Channel.fault? (c : Channel) : Option ChannelFault :=
  let parts := c.keyParts.length
  if Text.isBlankText c.name then some (.emptyName c.id)
  else if c.kind = .custom ∧ c.baseUrl.isNone then some (.noBaseUrl c.name)
  else if c.kind = .bedrock ∧ ¬(3 ≤ parts ∧ parts ≤ 4) then some (.bedrockKey c.name)
  else if c.kind = .vertexAI ∧ parts ≠ 3 then some (.vertexKey c.name)
  else none

/-- The first thing that is wrong with channels behind those with the ids `seen`. -/
def channelsFault? (seen : List Nat) : List Channel → Option ChannelFault
  | [] => none
  | c :: rest =>
    if seen.contains c.id then some (.repeatedId c.id)
    else match c.fault? with
      | some fault => some fault
      | none => channelsFault? (c.id :: seen) rest

/-- Load a configuration, given as a tree. A tree has no nulls; beside a name, an empty table
or list counts as nothing. -/
def Settings.load (vars : Environment.Variables) (tree : Json) : Except LoadError Settings :=
  match Environment.expand vars [] tree with
  | .error missing => .error (.unsetVariable missing)
  | .ok tree =>
    match Settings.read? Json.isEmpty tree with
    | none => .error .malformed
    | some settings =>
      match channelsFault? [] settings.channels with
      | some fault => .error (.invalid fault)
      | none => .ok settings

end Switchboard
