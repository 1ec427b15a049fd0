import Switchboard.Clock
import Switchboard.Conversion.ChatToClaude
import Switchboard.Relay.Basic

/-!
# Relaying chunks with tool calls

`Merging` turns the chunks of a chat stream into the events of one message. Blocks are
numbered upwards, one is open at a time, and the closing delta is followed by the stop.

The arguments of parallel tool calls come in pieces that may be interleaved, but the
pieces of one block must not be. A call that shows up while another one still lacks
arguments is queued; its block starts, with the arguments it has by then, once the open
call is complete or the open block has to close for another reason.
-/

namespace Switchboard.Relay

open Claude (Event Block StopReason MessageStart)

/-- The life of a relayed stream. -/
inductive Phase where
  | idle
  | streaming
  | finishing
  | closed
  deriving DecidableEq, Repr

/-- What a block is for. The calls are told apart by the provider's index. -/
inductive BlockKind where
  | text
  | thinking
  | call (index : Nat)
  deriving DecidableEq, Repr

/-- A block that was started and not stopped. -/
structure OpenBlock where
  index : Nat
  kind : BlockKind
  deriving DecidableEq, Repr

/-- A tool call as far as it is known. A placeholder has an id or a name of our own. -/
structure Call where
  id : String
  name : String
  placeholder : Bool
  arguments : String
  deriving DecidableEq, Repr

/-- Whether arguments are a whole JSON object. -/
def isWholeObject (arguments : String) : Bool :=
  let cs := Text.trimChars arguments.toList
  cs.head? == some '{' && cs.getLast? == some '}' && (Json.Reader.standard.read? cs).isSome

/-- Calls by the index that the provider gives them, in the order they showed up. -/
abbrev Calls := List (Nat × Call)

/-- Change the call with an index. -/
def Calls.modify (calls : Calls) (index : Nat) (f : Call → Call) : Calls :=
  calls.map fun (i, c) => if i = index then (i, f c) else (i, c)

/-- A relay that merges the pieces of each call. -/
structure Merging where
  model : String
  /-- The estimate of the prompt, for usage that is not reported. -/
  promptTokens : Nat
  now : Instant
  phase : Phase
  /-- The number of the next block, which has 32 bits. -/
  nextIndex : Nat
  openBlock : Option OpenBlock
  /-- The text so far, for usage that is not reported. -/
  text : String
  calls : Calls
  /-- The calls that wait for their block, by index. -/
  queued : List Nat
  /-- The usage that the provider reported last. -/
  lastUsage : Option Chat.Usage
  /-- The usage that the client was told. -/
  reported : Option Claude.Usage
  deriving DecidableEq, Repr

namespace Merging

/-- A relay for a client that asked for `model`, with an estimate of the prompt. -/
def start (model : String) (promptTokens : Nat) (now : Instant) : Merging where
  model := model
  promptTokens := promptTokens
  now := now
  phase := .idle
  nextIndex := 0
  openBlock := none
  text := ""
  calls := []
  queued := []
  lastUsage := none
  reported := none

/-- The arguments received for the call with an index. -/
def arguments? (r : Merging) (index : Nat) : Option String :=
  (r.calls.lookup index).map (·.arguments)

/-! ## Blocks -/

/-- Open the message. -/
def openMessage : Step Merging := fun r =>
  ({ r with phase := .streaming },
    [.messageStart (.empty r.now.messageId r.model (.of r.promptTokens 1))])

/-- Start a block with the next number. -/
def startBlock (kind : BlockKind) (block : Block) : Step Merging := fun r =>
  ({ r with nextIndex := r.nextIndex + 1, openBlock := some ⟨r.nextIndex, kind⟩ },
    [.blockStart r.nextIndex block])

/-- Stop the open block. -/
def stopBlock : Step Merging := fun r =>
  match r.openBlock with
  | some block => ({ r with openBlock := none }, [.blockStop block.index])
  | none => (r, [])

/-- A delta of the open block. -/
def emitDelta (delta : Claude.Delta) : Step Merging := fun r =>
  match r.openBlock with
  | some block => (r, [.blockDelta block.index delta])
  | none => (r, [])

/-- Start the block of a call, with the arguments received so far. -/
def startCall (index : Nat) : Step Merging := fun r =>
  match r.calls.lookup index with
  | none => (r, [])
  | some call =>
    Step.seq (startBlock (.call index) (.toolUse call.id call.name (.object [])))
      (if call.arguments.isEmpty then Step.emit [] else emitDelta (.inputJson call.arguments)) r

/-- Give each of the queued calls its block. -/
def flush : List Nat → Step Merging
  | [] => Step.emit []
  | index :: rest => (startCall index).seq (Step.seq stopBlock (flush rest))

/-- Stop the open block and give every queued call its block. -/
def settle : Step Merging := fun r =>
  Step.seq stopBlock (flush r.queued) { r with queued := [] }

/-- Whether the open block is a call, and whether its arguments are whole. -/
def openCallIsWhole? (r : Merging) : Option Bool :=
  match r.openBlock with
  | some ⟨_, .call index⟩ => some ((r.arguments? index).any isWholeObject)
  | _ => none

/-- While the open call is whole, go on to the next queued one. -/
def advanceFrom : List Nat → Step Merging
  | [] => Step.silent fun r => { r with queued := [] }
  | index :: rest => fun r =>
    if r.openCallIsWhole? = some true then
      Step.all [stopBlock, startCall index, advanceFrom rest] r
    else ({ r with queued := index :: rest }, [])

/-- Go on to queued calls while the open one is whole. -/
def advance : Step Merging := fun r => advanceFrom r.queued r

/-- Make sure that a block of the kind is open. -/
def ensureBlock (kind : BlockKind) (block : Block) : Step Merging := fun r =>
  if r.openBlock.map (·.kind) = some kind then (r, [])
  else settle.seq (startBlock kind block) r

/-! ## The parts of a chunk -/

/-- Reasoning, and a signature, which seals the block. -/
def onThinking (content signature : Option String) : Step Merging :=
  let content := Chat.nonEmpty? content
  let signature := Chat.nonEmpty? signature
  if content.isNone && signature.isNone then Step.emit []
  else Step.all
    [ensureBlock .thinking (.thinking "" none),
      Step.forSome content fun s => emitDelta (.thinking s),
      Step.forSome signature fun s => Step.seq (emitDelta (.signature s)) stopBlock]

/-- A piece of text. -/
def onText (s : String) : Step Merging := fun r =>
  Step.seq (ensureBlock .text (.plain "")) (emitDelta (.text s)) { r with text := r.text ++ s }

/-- A call that shows up for the first time. What it lacks is made up. -/
def newCall (now : Instant) (d : Chat.ToolCallDelta) : Call :=
  let id := Chat.nonEmpty? d.id
  let name := Chat.nonEmpty? d.name?
  { id := id.getD ("call_" ++ toString now.milliseconds ++ "_" ++ toString d.index)
    name := name.getD ("tool_" ++ toString d.index)
    placeholder := id.isNone || name.isNone
    arguments := "" }

/-- A placeholder takes the id and the name of the first piece that has both. -/
def Call.promote (d : Chat.ToolCallDelta) (c : Call) : Call :=
  match c.placeholder, Chat.nonEmpty? d.id, Chat.nonEmpty? d.name? with
  | true, some id, some name => { c with id := id, name := name, placeholder := false }
  | _, _, _ => c

/-- Learn who is called. A new call is queued while the open one lacks arguments. -/
def onCallHead (d : Chat.ToolCallDelta) : Step Merging := fun r =>
  match r.calls.lookup d.index with
  | some _ => ({ r with calls := r.calls.modify d.index (Call.promote d) }, [])
  | none =>
    let r := { r with calls := r.calls ++ [(d.index, newCall r.now d)] }
    if r.openCallIsWhole? = some false then ({ r with queued := r.queued ++ [d.index] }, [])
    else settle.seq (startCall d.index) r

/-- Keep a piece of arguments, and pass it on if the block of the call is open. -/
def onArguments (index : Nat) (fragment : String) : Step Merging := fun r =>
  let r := { r with calls := r.calls.modify index fun c =>
    { c with arguments := c.arguments ++ fragment } }
  if r.openBlock.map (·.kind) = some (.call index) then
    Step.seq (emitDelta (.inputJson fragment)) advance r
  else (r, [])

/-- A piece of a call: who is called, and then with what. -/
def onCall (d : Chat.ToolCallDelta) : Step Merging :=
  (onCallHead d).seq (Step.forSome (Chat.nonEmpty? d.arguments?) (onArguments d.index))

/-- The first piece of each call. -/
def firstPieces : List Nat → List Chat.ToolCallDelta → List Chat.ToolCallDelta
  | _, [] => []
  | seen, d :: rest =>
    if seen.contains d.index then firstPieces seen rest
    else d :: firstPieces (d.index :: seen) rest

/-! ## The end of the message -/

variable [Tokenizer]

/-- The tokens of the answer, estimated from its text and its calls. -/
def estimatedOutput (r : Merging) : Nat :=
  Tokens.estimateAll (r.calls.map fun (_, c) => Tokens.callText c.name c.arguments) +
    Tokens.estimate r.text

/-- The last usage of the provider, with estimates for the counts it leaves out. -/
def finalUsage (r : Merging) : Claude.Usage :=
  match r.lastUsage with
  | some u =>
    if 0 < u.completionTokens then .of u.promptTokens u.completionTokens
    else if 0 < u.promptTokens then .of u.promptTokens r.estimatedOutput
    else .of r.promptTokens r.estimatedOutput
  | none => .of r.promptTokens r.estimatedOutput

/-- End the message, behind everything that was queued. -/
def closeMessage (reason : StopReason) : Step Merging :=
  Step.all
    [Step.silent fun r => { r with phase := .finishing },
      settle,
      fun r => ({ r with reported := some r.finalUsage, phase := .closed },
        [.messageDelta (some reason) none r.finalUsage, .messageStop])]

/-! ## Steps -/

/-- What the first choice of a chunk brings. -/
def onChoice (choice : Chat.ChunkChoice) : Step Merging :=
  let delta := choice.delta
  Step.all
    [Step.forSome delta.reasoningContent fun s => onThinking (some s) none,
      Step.forSome delta.thinking fun t => onThinking t.content t.signature,
      Step.forSome (Chat.nonEmpty? delta.content) onText,
      Step.all ((firstPieces [] (delta.toolCalls.getD [])).map onCall),
      Step.forSome choice.finishReason fun reason => closeMessage (Chat.stopReason (some reason))]

/-- Take a chunk. -/
def push (chunk : Chat.Chunk) : Step Merging := fun r =>
  if r.phase = .closed then (r, [])
  else
    Step.all
      [fun r => if r.phase = .idle then openMessage r else (r, []),
        Step.silent fun r => { r with lastUsage := chunk.usage.or r.lastUsage },
        Step.forSome chunk.choices.head? onChoice] r

/-- The stream ended without a finish reason. -/
def finish : Step Merging := fun r =>
  match r.phase with
  | .closed | .finishing => (r, [])
  | .idle => openMessage.seq (closeMessage .endTurn) r
  | .streaming => closeMessage .endTurn r

/-- The client went away. -/
def close (r : Merging) : Merging := { r with phase := .closed }

instance : Relay Merging Chat.Chunk where
  accept := push
  finish := finish
  close := close
  isClosed r := r.phase = .closed
  usage? r := r.reported

end Merging

end Switchboard.Relay
