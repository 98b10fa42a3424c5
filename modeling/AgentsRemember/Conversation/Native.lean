import AgentsRemember.Conversation.Echo
import AgentsRemember.Conversation.Store

/-!
# Conversation — Native

From the frames of a harness to the items of the projection: the agents of the
session, the mapping of one frame, the suppression of native copies of live
turns, and the pending interactions of a snapshot.

How a harness reads its own shapes is a parameter, the `Mapper`; `none` is a
shape it does not recognize. Turn outcomes only feed the status, which is left
out, and so is the event stream: `Spine` is what the items depend on.
-/

namespace AgentsRemember.Conversation

/-- The three harnesses. -/
inductive HarnessId where
  | codex | claude | pi

namespace HarnessId

/-- The harness as ids are written. -/
def name : HarnessId → String
  | codex => "codex"
  | claude => "claude"
  | pi => "pi"

/-- The harness has native pages. -/
def usesNativePages : HarnessId → Bool
  | codex | pi => true
  | claude => false

/-- The user messages come as transcript echoes. -/
def usesTranscriptEcho : HarnessId → Bool
  | claude => true
  | codex | pi => false

/-- Native pages are read on at every poll. -/
def eagerNativeContinuation : HarnessId → Bool
  | pi => true
  | codex | claude => false

end HarnessId

/-- `type`, `evidenceTruncated` and `originalBytes` are what the raw frame says
under these keys. -/
structure NativeEvidenceFrame (ν : Type) where
  nativeId : String
  nativeParentId : Option String := none
  nativeType : String
  createdAt : Option String := none
  type : Option String := none
  evidenceTruncated : Bool := false
  originalBytes : Option Nat := none
  raw : ν

/-- How a harness reads its own shapes. -/
structure Mapper (ρ ε ν δ : Type) where
  mapNativeFrame : NativeEvidenceFrame ν → String → Option (List (MapperOutput δ))
  mapEvidenceFrame : EvidenceFrame ρ → String → Option String → Option (List (MapperOutput δ))
  mapTranscriptEcho : TranscriptEntry ε → String → Option (List (MapperOutput δ))

/-- The session that is projected. -/
structure Session where
  harness : HarnessId
  bridgeEpoch : String
  parentThreadId : Option String

/-- The part of the epoch that ids carry. -/
def Session.epochPrefix (session : Session) : String :=
  String.ofList (session.bridgeEpoch.toList.take 12)

/-! ## References -/

namespace ProjectionEvidenceRefs

/-- The reference of an evidence frame. -/
def evidence (session : Session) (sequence : Nat) : String :=
  "ar-ev:" ++ session.epochPrefix ++ ":" ++ toString sequence

/-- The reference of a native frame. -/
def native (session : Session) (nativeId : String) : String :=
  "ar-native:" ++ session.epochPrefix ++ ":" ++ nativeId

/-- A number, as it is printed where it may be missing. -/
def shown (sequence : Option Nat) : String := (sequence.map toString).getD "None"

/-- The reference of an echo. -/
def echo (session : Session) (sequence : Option Nat) : String :=
  "ar-echo:" ++ session.epochPrefix ++ ":" ++ shown sequence

end ProjectionEvidenceRefs

/-! ## Agents -/

/-- An agent in the registry. -/
structure RegistryEntry where
  agentPath : Option String := none
  status : Option String := none

/-- An interaction that waits for an answer. -/
structure PendingInteraction where
  interactionId : String
  prompt : String
  createdAt : String
  choices : List String := []
  threadId : Option String := none
  agentLabel : Option String := none

/-- The snapshot of a bridge. -/
structure AdapterSnapshot where
  agentRegistry : List (String × RegistryEntry) := []
  pendingInteraction : Option PendingInteraction := none
  pendingInteractions : List PendingInteraction := []

/-- A text that is there and not empty. -/
def nonEmpty (text : Option String) : Option String := text.filter fun t => t ≠ ""

/-- The status of a registered agent. -/
def registryAgentStatus : String → AgentStatus
  | "registered" => .registered
  | "running" | "started" | "interacted" | "active" => .running
  | "completed" => .completed
  | "failed" => .failed
  | "interrupted" => .interrupted
  | _ => .unknown

/-- The agents of a session. -/
structure AgentAuthority where
  snapshot : Option AdapterSnapshot := none
  liveThreads : List String := []

section agents
variable {ρ δ : Type}

/-- The item is an agent's row in the roster. -/
def isAgentRosterItem (item : Item δ) : Bool :=
  item.kind = .notice && item.role = .system && item.agent.isSome &&
    ProjectionStore.rosterPrefixed item.itemId

/-- The thread of a frame, the parent's left out. -/
def frameThread (session : Session) (frame : EvidenceFrame ρ) : Option String :=
  if frame.threadId = session.parentThreadId then none else frame.threadId

namespace AgentAuthority

/-- The snapshot, replaced. -/
def setSnapshot (a : AgentAuthority) (snapshot : AdapterSnapshot) : AgentAuthority :=
  { a with snapshot := some snapshot }

/-- The snapshot stays. -/
def reset (a : AgentAuthority) : AgentAuthority := { a with liveThreads := [] }

/-- The agent of a thread. -/
def ref (a : AgentAuthority) (threadId : String) : AgentRef :=
  let entry := a.snapshot.bind fun snapshot => snapshot.agentRegistry.lookup threadId
  { agentId := threadId
    agentPath := nonEmpty (entry.bind RegistryEntry.agentPath)
    status := ((entry.bind RegistryEntry.status).map registryAgentStatus).getD .unknown }

/-- The registry of the snapshot over what a historical roster row says. -/
def reconcileRoster (a : AgentAuthority) (output : MapperOutput δ) : MapperOutput δ :=
  match output with
  | .item item =>
    match item.agent with
    | none => output
    | some agent =>
      if !isAgentRosterItem item then output
      else
        let registry := a.ref agent.agentId
        let newPath := agent.agentPath.isNone && registry.agentPath.isSome
        let newStatus := (item.source = .nativeHistory ∨ agent.status = .unknown) ∧
          registry.status ≠ .unknown
        -- a row that takes something from the registry counts as live
        if newPath ∨ newStatus then
          .item { item with
            agent := some { agent with
              agentPath := if newPath then registry.agentPath else agent.agentPath
              status := if newStatus then registry.status else agent.status }
            source := .harnessLive }
        else output
  | _ => output

/-- The agent of a foreign thread, on an output that names none. -/
def boundTo (a : AgentAuthority) (threadId : String) (output : MapperOutput δ) : MapperOutput δ :=
  match output with
  | .unknownVendor mapped =>
    if mapped.agent.isSome then output
    else .unknownVendor { mapped with agent := some (a.ref threadId) }
  | .item item =>
    a.reconcileRoster (.item
      (if item.agent.isSome then item else { item with agent := some (a.ref threadId) }))
  | _ => output

/-- The outputs under their thread. -/
def bindThread (a : AgentAuthority) (threadId : String) (outputs : List (MapperOutput δ)) :
    List (MapperOutput δ) × AgentAuthority :=
  (outputs.map (a.boundTo threadId),
    { a with liveThreads :=
        if outputs.isEmpty ∨ threadId ∈ a.liveThreads then a.liveThreads
        else a.liveThreads ++ [threadId] })

end AgentAuthority

end agents

/-! ## Mapping -/

section mapping
variable {ρ ε ν δ : Type} (session : Session) (mapper : Mapper ρ ε ν δ)

/-- The size, where it is known. -/
def sizeLabel (originalBytes : Option Nat) : String :=
  match originalBytes with
  | some bytes => " (" ++ toString bytes ++ " bytes)"
  | none => ""

/-- The id of a vendor shape. -/
def vendorItemId (frame : EvidenceFrame ρ) : String :=
  "vendor-" ++ session.epochPrefix ++ "-" ++ toString frame.sequence

/-- A frame too large for the window. -/
def clippedFrame (frame : EvidenceFrame ρ) : MappedUnknownVendor where
  itemId := vendorItemId session frame
  vendorType := session.harness.name ++ ":evidence-truncated"
  safeSummary := "oversized " ++ frame.type.getD "native" ++
    " frame clipped to the evidence budget" ++ sizeLabel frame.originalBytes
  createdAt := some frame.createdAt

/-- A frame no schema reads. -/
def malformedFrame (frame : EvidenceFrame ρ) : MappedUnknownVendor where
  itemId := vendorItemId session frame
  vendorType := session.harness.name ++ ":malformed"
  safeSummary := "native frame failed exact schema parsing"
  createdAt := some frame.createdAt

/-- What a frame stands for, before its thread is looked at. -/
def frameOutputs (frame : EvidenceFrame ρ) (evidenceRef : String) : List (MapperOutput δ) :=
  if frame.evidenceTruncated then [.unknownVendor (clippedFrame session frame)]
  else (mapper.mapEvidenceFrame frame evidenceRef session.parentThreadId).getD
    [.unknownVendor (malformedFrame session frame)]

/-- `map_evidence_frame`: the outputs, under their thread. -/
def mapEvidenceFrame (frame : EvidenceFrame ρ) (evidenceRef : String) (a : AgentAuthority) :
    List (MapperOutput δ) × AgentAuthority :=
  let outputs := frameOutputs session mapper frame evidenceRef
  let (outputs, a) := match frameThread session frame with
    | some threadId => a.bindThread threadId outputs
    | none => (outputs, a)
  (outputs.map a.reconcileRoster, a)

/-- A native frame too large for its page. -/
def clippedNative (frame : NativeEvidenceFrame ν) : MappedUnknownVendor where
  itemId := frame.nativeId
  vendorType := session.harness.name ++ ":evidence-truncated"
  safeSummary := "oversized " ++ frame.type.getD frame.nativeType ++
    " native frame clipped to the evidence budget" ++ sizeLabel frame.originalBytes
  live := false
  turnId := frame.nativeParentId
  createdAt := frame.createdAt

/-- A native frame no schema reads. -/
def malformedNative (frame : NativeEvidenceFrame ν) : MappedUnknownVendor where
  itemId := frame.nativeId
  vendorType := session.harness.name ++ ":malformed"
  safeSummary := "native frame failed exact schema parsing"
  live := false
  turnId := frame.nativeParentId
  createdAt := frame.createdAt

/-- A native frame, mapped, its agents under the roster. -/
def mapNativeFrame (frame : NativeEvidenceFrame ν) (evidenceRef : String) (a : AgentAuthority) :
    List (MapperOutput δ) :=
  let outputs :=
    if frame.evidenceTruncated then [.unknownVendor (clippedNative session frame)]
    else (mapper.mapNativeFrame frame evidenceRef).getD
      [.unknownVendor (malformedNative session frame)]
  outputs.map a.reconcileRoster

/-- What an echo maps to. -/
def echoOutputs (entry : TranscriptEntry ε) (evidenceRef : String) : List (MapperOutput δ) :=
  (mapper.mapTranscriptEcho entry evidenceRef).getD
    [.unknownVendor
      { itemId := "echo-" ++ session.epochPrefix ++ "-" ++
          ProjectionEvidenceRefs.shown entry.sequence
        vendorType := "claude:echo"
        safeSummary := "unrecognized submission echo shape" }]

end mapping

/-! ## Live turns -/

/-- Ids by thread. -/
abbrev Buckets : Type := List (Option String × List String)

/-- The kinds that carry content. -/
def contentItemKind (kind : Kind) : Bool :=
  kind = .message || kind = .toolCall || kind = .toolResult || kind = .thinking || kind = .plan

section live
variable {δ : Type}

/-- The turns the outputs belong to. -/
def liveTurns (outputs : List (MapperOutput δ)) : List String :=
  outputs.filterMap fun
    | .item item => if contentItemKind item.kind then nonEmpty item.turnId else none
    | .unknownVendor mapped => nonEmpty mapped.turnId
    | _ => none

/-- The requests that user items were submitted with. -/
def liveRequests (outputs : List (MapperOutput δ)) : List String :=
  outputs.filterMap fun
    | .item item =>
      if item.role = .user then nonEmpty (item.correlation.bind Correlation.requestId) else none
    | _ => none

/-- The texts, added to the set of a bucket. -/
def addTo (buckets : Buckets) (bucket : Option String) (texts : List String) : Buckets :=
  Keyed.set buckets bucket (((buckets.lookup bucket).getD []).union texts)

/-- Native copies of live turns are dropped; a dropped turn stays dropped. -/
def suppressLiveTwins (liveTurnIds liveRequestIds : List String) :
    List (MapperOutput δ) → List String → List (MapperOutput δ) × List String
  | [], liveNativeTurns => ([], liveNativeTurns)
  | output :: outputs, liveNativeTurns =>
    let turnId : Option String := match output with
      | .item item => item.turnId
      | .unknownVendor mapped => mapped.turnId
      | _ => none
    let requestId : Option String := match output with
      | .item item =>
        if item.role = .user then item.correlation.bind Correlation.requestId else none
      | _ => none
    let duplicate := turnId.any (· ∈ liveTurnIds) || requestId.any (· ∈ liveRequestIds) ||
      turnId.any (· ∈ liveNativeTurns)
    -- with one twin of a native turn, the outputs behind it are twins as well
    if duplicate then
      suppressLiveTwins liveTurnIds liveRequestIds outputs (liveNativeTurns.union turnId.toList)
    else
      let (kept, liveNativeTurns) :=
        suppressLiveTwins liveTurnIds liveRequestIds outputs liveNativeTurns
      (output :: kept, liveNativeTurns)

end live

/-! ## The spine -/

/-- The store and the agents. -/
structure Spine (δ : Type) where
  store : ProjectionStore δ := {}
  agents : AgentAuthority := {}

namespace Spine
variable {ρ ε ν δ : Type} [BEq δ]

/-- One output into the store. -/
def applyOutput (evidenceRef : String) (s : Spine δ) (output : MapperOutput δ) : Spine δ :=
  match output with
  | .item item => { s with store := (s.store.applyItem item).1 }
  | .blockDelta delta => { s with store := (s.store.applyDelta delta).1 }
  | .unknownVendor mapped =>
    { s with store := (s.store.applyItem (unknownVendorItem mapped evidenceRef)).1 }
  | .turnOutcome _ => s

/-- The outputs in order. -/
def applyOutputs (outputs : List (MapperOutput δ)) (evidenceRef : String) (s : Spine δ) :
    Spine δ :=
  outputs.foldl (applyOutput evidenceRef) s

variable (session : Session) (mapper : Mapper ρ ε ν δ)

/-- A frame, mapped and applied. -/
def applyFrame (frame : EvidenceFrame ρ) (s : Spine δ) : Spine δ :=
  let ref := ProjectionEvidenceRefs.evidence session frame.sequence
  let (outputs, agents) := mapEvidenceFrame session mapper frame ref s.agents
  applyOutputs outputs ref { s with agents := agents }

/-- An echo, mapped and applied. -/
def applyEcho (entry : TranscriptEntry ε) (s : Spine δ) : Spine δ :=
  let ref := ProjectionEvidenceRefs.echo session entry.sequence
  applyOutputs (echoOutputs session mapper entry ref) ref s

/-- The sink of the echo zipper. -/
def sink : Sink ρ ε (Spine δ) where
  echo := applyEcho session mapper
  frame := applyFrame session mapper
  advance _ s := s

end Spine

/-! ## Interactions -/

/-- The interactions that are shown as pending. -/
structure InteractionProjection where
  parentPendingId : Option String := none
  multiplexedIds : List String := []

namespace InteractionProjection
variable {δ : Type}

/-- The agent of a multiplexed interaction. -/
def agentRef (a : AgentAuthority) (entry : PendingInteraction) (threadId : String) : AgentRef :=
  let registryRef := a.ref threadId
  { agentId := threadId
    agentPath := registryRef.agentPath
    nickname := nonEmpty entry.agentLabel
    status := registryRef.status }

/-- An interaction as an item. -/
def interactionItem (pending : PendingInteraction) (agent : Option AgentRef) : Item δ where
  itemId := pending.interactionId
  lane := .interaction
  source := .harnessLive
  provenance :=
    { strength := .exact
      origin := "adapter pending-interaction authority"
      producer := some .harness
      observedAt := some pending.createdAt }
  role := .system
  kind := .interaction
  phase := .waiting
  blocks := ⟨"prompt", .text pending.prompt⟩ ::
    if pending.choices.isEmpty then []
    else [⟨"choices", .choices pending.interactionId
      (pending.choices.map fun choice => { optionId := choice, label := choice })⟩]
  correlation := some { interactionId := some pending.interactionId }
  agent := agent
  createdAt := some pending.createdAt

variable [BEq δ]

/-- An interaction into the store. -/
def upsert (pending : PendingInteraction) (agent : Option AgentRef) (s : Spine δ) : Spine δ :=
  { s with store := (s.store.applyItem (interactionItem pending agent)).1 }

/-- An interaction that is no longer pending. -/
def resolve (interactionId : String) (s : Spine δ) : Spine δ :=
  match s.store.view.find? fun item => item.itemId = interactionId with
  | none => s
  | some current =>
    { s with store := (s.store.applyItem
        { current with
          phase := .unknown
          provenance := { current.provenance with
            reason := some "interaction cleared without observable outcome" } }).1 }

/-- The multiplexed interactions of a snapshot, with their threads, by id. -/
def multiplexed (snapshot : AdapterSnapshot) (parentPendingId : Option String) :
    List (String × PendingInteraction × String) :=
  Keyed.dict (snapshot.pendingInteractions.filterMap fun entry =>
    if some entry.interactionId = parentPendingId then none
    else (nonEmpty entry.threadId).map fun threadId => (entry.interactionId, entry, threadId))

/-- The interactions of other threads. -/
def applyMultiplexed (session : Session) (snapshot : AdapterSnapshot)
    (parentPendingId : Option String) (p : InteractionProjection) (s : Spine δ) :
    InteractionProjection × Spine δ :=
  let current := multiplexed snapshot parentPendingId
  let (ids, s) := current.foldl (fun acc e =>
    if e.1 ∈ acc.1 then acc
    else
      let agent := if some e.2.2 ≠ session.parentThreadId then
        some (agentRef acc.2.agents e.2.1 e.2.2) else none
      (acc.1 ++ [e.1], upsert e.2.1 agent acc.2)) (p.multiplexedIds, s)
  let gone := (ids.filter fun id => id ∉ current.map Prod.fst).mergeSort fun a b => !decide (b < a)
  ({ p with multiplexedIds := ids.filter fun id => id ∈ current.map Prod.fst },
    gone.foldl (fun s id => if some id = parentPendingId then s else resolve id s) s)

/-- The interactions of a snapshot. -/
def apply (session : Session) (snapshot : AdapterSnapshot) (p : InteractionProjection)
    (s : Spine δ) : InteractionProjection × Spine δ :=
  let pendingId := snapshot.pendingInteraction.map PendingInteraction.interactionId
  let (p, s) :=
    if pendingId = p.parentPendingId then (p, s)
    else
      let s' := match snapshot.pendingInteraction with
        | some pending => upsert pending none s
        | none => s
      ({ p with parentPendingId := pendingId },
        match p.parentPendingId with
        | some previousId => resolve previousId s'
        | none => s')
  applyMultiplexed session snapshot pendingId p s

end InteractionProjection

end AgentsRemember.Conversation
