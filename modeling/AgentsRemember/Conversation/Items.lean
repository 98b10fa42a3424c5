import AgentsRemember.Foundation.Keyed

/-!
# Conversation — Items

The items of an active conversation and what a harness mapper hands in: mapped
items, text deltas, turn outcomes, and vendor shapes that were not recognized.

A block's `data` is whatever the vendor sent. It is a parameter `δ`, of which
the projection only asks whether two values compare equal.
-/

namespace AgentsRemember.Conversation

/-- The lane an item is shown in. -/
inductive Lane where
  | operator | harness | agentBus | unknownInput | interaction | control | system
deriving DecidableEq, BEq

/-- Where an item came from. -/
inductive Source where
  | cockpitComposer | terminalControlled | durableInbox | harnessLive | harnessReplay
  | interactionResponse | controlAuthority | nativeHistory
deriving DecidableEq, BEq

/-- Whose item it is. -/
inductive Role where
  | user | assistant | system | tool
deriving DecidableEq, BEq

/-- How sure its provenance is. -/
inductive Strength where
  | exact | correlated | nativeOnly | unknown
deriving DecidableEq, BEq

/-- Who produced it. -/
inductive Producer where
  | operator | agentBus | controlledTerminal | harness | system
deriving DecidableEq, BEq

/-- What kind of item it is. -/
inductive Kind where
  | message | thinking | plan | toolCall | toolResult | interaction | turnResult | notice
  | error | telemetry | unknownVendor
deriving DecidableEq, BEq

/-- Where an item stands. -/
inductive Phase where
  | pending | streaming | waiting | completed | failed | interrupted | unknown
deriving DecidableEq, BEq

/-- Where an agent stands. -/
inductive AgentStatus where
  | registered | running | completed | interrupted | failed | unknown
deriving DecidableEq, BEq

/-- What the provenance of an item rests on. -/
structure ProvenanceEvidence where
  strength : Strength
  origin : String
  producer : Option Producer := none
  observedAt : Option String := none
  evidenceRef : Option String := none
  reason : Option String := none
deriving DecidableEq, BEq

/-- The ids an item is correlated by. -/
structure Correlation where
  requestId : Option String := none
  vendorCorrelationId : Option String := none
  interactionId : Option String := none
  toolCallId : Option String := none
deriving DecidableEq, BEq

/-- The agent an item belongs to. -/
structure AgentRef where
  agentId : String
  agentPath : Option String := none
  nickname : Option String := none
  role : Option String := none
  joinKey : Option String := none
  parentAgentId : Option String := none
  status : AgentStatus := .unknown
deriving DecidableEq, BEq

/-- A choice of an interaction. -/
structure ChoiceOption where
  optionId : String
  label : String
  description : Option String := none
deriving DecidableEq, BEq

/-- Where an alternative text came from. -/
inductive AltProvenance where
  | suppliedDescription | filenameMimeFallback
deriving DecidableEq, BEq

/-! ## Blocks -/

/-- What a block holds, by its type. -/
inductive Content (δ : Type) where
  | markdown (markdown : String)
  | text (text : String)
  | thinking (markdown : String)
  | code (text : String) (language : Option String)
  | toolInput (summary : String) (data : Option δ)
  | toolOutput (text : Option String) (data : Option δ)
  | diff (path oldText newText unified : Option String)
  | imageRef (assetId alt : String) (altProvenance : AltProvenance) (mimeType : String)
  | fileRef (name : String) (uri mimeType : Option String)
  | resourceRef (name : String) (uri mimeType : Option String)
  | choices (interactionId : String) (options : List ChoiceOption)
  | unknownVendor (vendorType safeSummary evidenceRef : String)
deriving DecidableEq, BEq

/-- A block of an item. -/
structure Block (δ : Type) where
  blockId : String
  content : Content δ
deriving DecidableEq, BEq

/-- `ConversationItem`, its blocks in order. -/
structure Item (δ : Type) where
  itemId : String
  revision : Nat := 1
  globalOrdinal : Nat := 1
  turnId : Option String := none
  parentItemId : Option String := none
  lane : Lane
  source : Source
  provenance : ProvenanceEvidence
  role : Role
  kind : Kind
  phase : Phase
  blocks : List (Block δ)
  correlation : Option Correlation := none
  agent : Option AgentRef := none
  createdAt : Option String := none
  updatedAt : Option String := none
  evidenceRef : Option String := none
deriving DecidableEq, BEq

/-! ## What a mapper emits -/

/-- Text for the end of a block. -/
structure MappedBlockDelta where
  itemId : String
  blockId : String
  delta : String

/-- How a turn ended. -/
inductive Outcome where
  | completed | interrupted | failed | unknown

/-- The end of a turn, as mapped. -/
structure MappedTurnOutcome where
  outcome : Outcome
  turnId : Option String := none
  stopReason : Option String := none

/-- A vendor shape that was not recognized. -/
structure MappedUnknownVendor where
  itemId : String
  vendorType : String
  safeSummary : String
  live : Bool := true
  turnId : Option String := none
  createdAt : Option String := none
  parentItemId : Option String := none
  role : Role := .system
  agent : Option AgentRef := none

/-- What a mapper hands in. -/
inductive MapperOutput (δ : Type) where
  | item (item : Item δ)
  | blockDelta (delta : MappedBlockDelta)
  | turnOutcome (outcome : MappedTurnOutcome)
  | unknownVendor (mapped : MappedUnknownVendor)

/-- The verdicts of the submission ledger. -/
inductive SubmissionSource where
  | cockpit | terminal | durable

/-! ## Block operations -/

section blocks
variable {δ : Type}

/-- The item has a block of that id. -/
def hasBlock (item : Item δ) (blockId : String) : Bool :=
  item.blocks.any fun block => block.blockId == blockId

/-- The block a delta without an id goes to. -/
def defaultBlock (item : Item δ) : String :=
  if item.kind = .toolCall then "output" else "markdown"

/-- The block a delta is addressed to: the default one when it names none. -/
def targetBlock (item : Item δ) (blockId : String) : String :=
  if blockId = "" then defaultBlock item else blockId

/-- The server's append: the four kinds of block that stream text. -/
def appendText (block : Block δ) (delta : String) : Block δ :=
  match block.content with
  | .markdown markdown => { block with content := .markdown (markdown ++ delta) }
  | .text text => { block with content := .text (text ++ delta) }
  | .thinking markdown => { block with content := .thinking (markdown ++ delta) }
  | .toolOutput text data =>
    { block with content := .toolOutput (some (text.getD "" ++ delta)) data }
  | _ => block

/-- The appendable text a block carries. -/
def blockContentText (block : Block δ) : String :=
  match block.content with
  | .markdown markdown | .thinking markdown => markdown
  | .text text => text
  | .toolOutput text _ => text.getD ""
  | _ => ""

/-- The blocks that have text of their own. -/
def authoritativeBlockIds (candidate : Item δ) : List String :=
  (candidate.blocks.filter fun block => blockContentText block ≠ "").map Block.blockId

/-- A block that begins with a delta. -/
def mintBlockWithText (item : Item δ) (blockId text : String) : Item δ :=
  let content : Content δ := match item.kind with
    | .toolCall => .toolOutput (some text) none
    | .thinking => .thinking text
    | _ => .markdown text
  { item with blocks := item.blocks ++ [⟨blockId, content⟩], revision := item.revision + 1 }

/-- The item with a delta appended to every block of that name. -/
def appendDelta (item : Item δ) (blockId delta : String) : Item δ :=
  { item with
    blocks := item.blocks.map fun block =>
      if block.blockId = blockId then appendText block delta else block
    revision := item.revision + 1 }

/-- Union by block id: the candidate wins an id both have, at its first place. -/
def unionBlocks (existing candidate : List (Block δ)) : List (Block δ) :=
  (Keyed.dict ((existing ++ candidate).map fun block => (block.blockId, block))).map Prod.snd

end blocks

end AgentsRemember.Conversation
