import Switchboard.Clock
import Switchboard.Conversion.ChatToClaude
import Switchboard.Relay.Merging

/-!
# Relaying chunks one by one

For conversations without tools every chunk is turned into at most one event on its own,
its reasoning apart. The relay only numbers the blocks, so that one is open at a time,
and drops arguments that do not belong to the open block.
-/

namespace Switchboard.Relay

open Claude (Event Block StopReason)

/-- A relay that knows the answer only by its blocks. -/
structure PerChunk where
  model : String
  promptTokens : Nat
  now : Instant
  started : Bool
  closed : Bool
  /-- The number of the next block. Numbers have 32 bits, and a stream would have to have `2 ^ 31`
  chunks to need more. -/
  nextIndex : Nat
  openBlock : Option OpenBlock
  usage : Option Claude.Usage
  deriving DecidableEq, Repr

namespace PerChunk

/-- A relay for a client that asked for `model`, with an estimate of the prompt. -/
def start (model : String) (promptTokens : Nat) (now : Instant) : PerChunk where
  model := model
  promptTokens := promptTokens
  now := now
  started := false
  closed := false
  nextIndex := 0
  openBlock := none
  usage := none

/-- Open the message, once. -/
def ensureMessage : Step PerChunk := fun r =>
  if r.started then (r, [])
  else
    ({ r with started := true },
      [.messageStart (.empty r.now.messageId r.model (.of r.promptTokens 1))])

/-- Stop the block that is open, if one is. -/
def stopBlock : Step PerChunk := fun r =>
  match r.openBlock with
  | some block => ({ r with openBlock := none }, [.blockStop block.index])
  | none => (r, [])

/-- Stop the open block and start one with the next number. -/
def startBlock (kind : BlockKind) (block : Block) : Step PerChunk :=
  stopBlock.seq fun r =>
    ({ r with nextIndex := r.nextIndex + 1, openBlock := some ⟨r.nextIndex, kind⟩ },
      [.blockStart r.nextIndex block])

/-- Make sure that a block of the kind is open. -/
def ensureBlock (kind : BlockKind) (block : Block) : Step PerChunk := fun r =>
  if r.openBlock.map (·.kind) = some kind then (r, []) else startBlock kind block r

/-- A delta of the open block. -/
def emitDelta (delta : Claude.Delta) : Step PerChunk := fun r =>
  match r.openBlock with
  | some block => (r, [.blockDelta block.index delta])
  | none => (r, [])

/-- The reasoning of a chunk, and the signature that seals it. -/
def onReasoning (delta : Chat.Delta) : Step PerChunk :=
  let content := Chat.nonEmpty?
    (delta.reasoningContent.or (delta.thinking.bind (·.content)))
  let signature := Chat.nonEmpty? (delta.thinking.bind (·.signature))
  if content.isNone && signature.isNone then Step.emit []
  else Step.all
    [ensureBlock .thinking (.thinking "" none),
      Step.forSome content fun s => emitDelta (.thinking s),
      Step.forSome signature fun s => Step.seq (emitDelta (.signature s)) stopBlock]

/-- Stop the block that is open, and end the message. -/
def closeMessage (reason : Option StopReason) (sequence : Option String) (usage : Claude.Usage) :
    Step PerChunk :=
  stopBlock.seq fun r =>
    ({ r with usage := some usage, closed := true },
      [.messageDelta reason sequence usage, .messageStop])

/-- Fit the event of one chunk into the numbering. -/
def onEvent : Event → Step PerChunk
  | .blockDelta _ (.text s) => (ensureBlock .text (.plain "")).seq (emitDelta (.text s))
  | .blockStart index block => startBlock (.call index) block
  | .blockDelta index delta => fun r =>
    if r.openBlock.map (·.kind) = some (.call index) then emitDelta delta r else (r, [])
  | .messageDelta reason sequence usage => closeMessage reason sequence usage
  | event => Step.emit [event]

/-- Take a chunk. -/
def push (chunk : Chat.Chunk) : Step PerChunk := fun r =>
  if r.closed then (r, [])
  else
    Step.all
      [ensureMessage,
        Step.forSome chunk.choices.head? fun choice => onReasoning choice.delta,
        Step.forSome chunk.toClaudeEvent? onEvent] r

/-- The stream ended without a finish reason. -/
def finish : Step PerChunk := fun r =>
  if r.closed then (r, [])
  else ensureMessage.seq (closeMessage (some .endTurn) none (.of 0 0)) r

instance : Relay PerChunk Chat.Chunk where
  accept := push
  finish := finish
  close r := { r with closed := true }
  isClosed r := r.closed
  usage? r := r.usage

end PerChunk

end Switchboard.Relay
