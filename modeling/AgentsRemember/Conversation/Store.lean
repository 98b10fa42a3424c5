import AgentsRemember.Conversation.Items

/-!
# Conversation — Store

The projection store of one session: items by id, in the order in which they
first appeared, deltas that came before their item, and the user items whose
producer is still to be resolved.

Every operation returns the mutations it applied. `items` is the dictionary of
the source together with its list of ids: both are only ever appended to, by
the same statement, so the list is the order of the dictionary's keys.
-/

namespace AgentsRemember.Conversation

/-- The cap on the items that deltas wait for. -/
def maxPendingDeltaItems : Nat := 64

/-- The cap on the deltas that wait for one item. -/
def maxPendingDeltasPerItem : Nat := 64

/-- One applied change of the projection. -/
inductive StoreMutation (δ : Type) where
  | appendItem (item : Item δ)
  | upsertItem (item : Item δ)
  | appendBlockDelta (itemId blockId : String) (expectedRevision nextRevision : Nat)
    (delta : String)

/-- The items in their order, and what waits. -/
structure ProjectionStore (δ : Type) where
  items : List (String × Item δ) := []
  pendingDeltas : List (String × List MappedBlockDelta) := []
  provenancePending : List (String × String) := []
  provenanceDone : List String := []

namespace ProjectionStore

variable {δ : Type}

/-- The items in canonical order. -/
def view (s : ProjectionStore δ) : List (Item δ) := s.items.map Prod.snd

/-- The item under an id. -/
def get (s : ProjectionStore δ) (itemId : String) : Option (Item δ) := s.items.lookup itemId

/-- An item under its id. -/
def put (s : ProjectionStore δ) (item : Item δ) : ProjectionStore δ :=
  { s with items := Keyed.set s.items item.itemId item }

/-- The requests whose producer is not known. -/
def pendingRequestIds (s : ProjectionStore δ) : List String :=
  (Keyed.dict ((s.provenancePending.map Prod.snd).filterMap fun requestId =>
    if requestId ∈ s.provenanceDone then none else some (requestId, ()))).map Prod.fst

/-- A user item whose producer is to be asked. -/
def trackProvenance (s : ProjectionStore δ) (item : Item δ) : ProjectionStore δ :=
  match item.correlation.bind Correlation.requestId with
  | none => s
  | some requestId =>
    if item.role = .user ∧ requestId ≠ "" ∧ item.provenance.strength ≠ .exact then
      { s with provenancePending := Keyed.set s.provenancePending item.itemId requestId }
    else s

/-! ## Deltas -/

/-- The backlog with a slot for the item: the oldest one makes room for it. -/
def withSlot (pendingDeltas : List (String × List MappedBlockDelta)) (itemId : String) :
    List (String × List MappedBlockDelta) :=
  if (pendingDeltas.lookup itemId).isSome then pendingDeltas
  else
    (if maxPendingDeltaItems ≤ pendingDeltas.length then pendingDeltas.tail
      else pendingDeltas) ++ [(itemId, [])]

/-- A delta waits for its item. -/
def bufferDelta (s : ProjectionStore δ) (mapped : MappedBlockDelta) : ProjectionStore δ :=
  let slots := withSlot s.pendingDeltas mapped.itemId
  let pending := (slots.lookup mapped.itemId).getD []
  { s with pendingDeltas :=
      if pending.length < maxPendingDeltasPerItem then
        Keyed.set slots mapped.itemId (pending ++ [mapped])
      else slots }

/-- One delta for an item that is there: the block is minted with the delta's
text when the item does not carry it, and appended to otherwise. -/
def applyDeltaTo (s : ProjectionStore δ) (item : Item δ) (blockId delta : String) :
    ProjectionStore δ × List (StoreMutation δ) :=
  if hasBlock item blockId then
    (s.put (appendDelta item blockId delta),
      [.appendBlockDelta item.itemId blockId item.revision (item.revision + 1) delta])
  else
    let minted := mintBlockWithText item blockId delta
    (s.put minted, [.upsertItem minted])

/-- The deltas of one item's backlog, in the order they came. -/
def flush (itemId : String) (authoritative : List String) :
    List MappedBlockDelta → ProjectionStore δ → ProjectionStore δ × List (StoreMutation δ)
  | [], s => (s, [])
  | mapped :: pending, s =>
    match s.get itemId with
    | none => (s, [])
    | some current =>
      let blockId := targetBlock current mapped.blockId
      if blockId ∈ authoritative then flush itemId authoritative pending s
      else
        let (s, mutations) := s.applyDeltaTo current blockId mapped.delta
        let (s, rest) := flush itemId authoritative pending s
        (s, mutations ++ rest)

/-- The deltas that waited, applied. -/
def flushPendingDeltas (s : ProjectionStore δ) (itemId : String) (authoritative : List String) :
    ProjectionStore δ × List (StoreMutation δ) :=
  let pending := (s.pendingDeltas.lookup itemId).getD []
  flush itemId authoritative pending
    { s with pendingDeltas := Keyed.erase s.pendingDeltas itemId }

/-- `apply_delta`. -/
def applyDelta (s : ProjectionStore δ) (mapped : MappedBlockDelta) :
    ProjectionStore δ × List (StoreMutation δ) :=
  match s.get mapped.itemId with
  | none => (s.bufferDelta mapped, [])
  | some item => s.applyDeltaTo item (targetBlock item mapped.blockId) mapped.delta

/-! ## Items -/

/-- The first of two optional texts, unless it is missing or empty. -/
def orText (first second : Option String) : Option String :=
  if first.getD "" = "" then second else first

/-- The status is an end. -/
def terminalAgentStatus (status : AgentStatus) : Bool :=
  status = .completed || status = .failed || status = .interrupted

/-- The id of a roster row. -/
def rosterPrefixed (itemId : String) : Bool :=
  "codex-agent-".isPrefixOf itemId || "claude-agent-".isPrefixOf itemId

/-- What a native re-map inherits from the item that is there: its provenance,
and of a user's input the lane and the source with it. -/
def preservedInputAuthority (existing candidate : Item δ) : Item δ :=
  let candidate := { candidate with provenance := existing.provenance }
  if existing.role = .user then
    { candidate with lane := existing.lane, source := existing.source }
  else candidate

/-- A historical replay of a roster row does not take back a terminal status. -/
def reconcileRosterUpsert (existing candidate : Item δ) : Item δ :=
  match existing.agent, candidate.agent with
  | some existingAgent, some candidateAgent =>
    let rosterPair := existing.kind = .notice ∧ candidate.kind = .notice ∧
      existing.role = .system ∧ candidate.role = .system ∧
      rosterPrefixed existing.itemId ∧ rosterPrefixed candidate.itemId
    if ¬ rosterPair ∨ ¬ terminalAgentStatus existingAgent.status ∨
        terminalAgentStatus candidateAgent.status ∨ candidate.source ≠ .nativeHistory then
      candidate
    else
      { candidate with
        agent := some
          { candidateAgent with
            status := existingAgent.status
            agentPath := orText candidateAgent.agentPath existingAgent.agentPath }
        phase := existing.phase }
  | _, _ => candidate

/-- Tool calls converge by union of their blocks, and keep a terminal phase. -/
def unionToolCall (existing candidate : Item δ) : Item δ :=
  if existing.kind = .toolCall ∧ candidate.kind = .toolCall then
    let candidate := { candidate with blocks := unionBlocks existing.blocks candidate.blocks }
    if candidate.phase = .streaming ∧
        (existing.phase = .completed ∨ existing.phase = .failed ∨
          existing.phase = .interrupted) then
      { candidate with phase := existing.phase }
    else candidate
  else candidate

/-- A roster notice keeps the final message it has. -/
def retainFinalMessage (existing candidate : Item δ) : Item δ :=
  if existing.kind = .notice ∧ candidate.kind = .notice ∧
      ¬ hasBlock candidate "final-message" then
    { candidate with
      blocks := candidate.blocks ++
        existing.blocks.filter fun block => block.blockId = "final-message" }
  else candidate

/-- The candidate with what it keeps of the existing item. -/
def merged (existing candidate : Item δ) : Item δ :=
  retainFinalMessage existing (unionToolCall existing (reconcileRosterUpsert existing candidate))

/-- The fields the engine resolves, left out of a comparison. -/
def normalized (item : Item δ) : Item δ :=
  { item with
    revision := 0, globalOrdinal := 0, createdAt := none, updatedAt := none
    provenance := ⟨.unknown, "", none, none, none, none⟩ }

/-- The next revision of an existing item. -/
def upserted (existing candidate : Item δ) : Item δ :=
  preservedInputAuthority existing
    { candidate with
      revision := existing.revision + 1
      globalOrdinal := existing.globalOrdinal
      createdAt := orText existing.createdAt candidate.createdAt }

/-- An item as it stands at its first appearance. -/
def firstAppearance (candidate : Item δ) (ordinal : Nat) : Item δ :=
  { candidate with revision := 1, globalOrdinal := ordinal }

section
variable [BEq δ]

/-- `apply_item`: an append, or an upsert. -/
def applyItem (s : ProjectionStore δ) (candidate : Item δ) :
    ProjectionStore δ × List (StoreMutation δ) :=
  let mapperAuthoritative := authoritativeBlockIds candidate
  match s.get candidate.itemId with
  | none =>
    let item := firstAppearance candidate (s.items.length + 1)
    let (s, tail) := ((s.put item).trackProvenance item).flushPendingDeltas item.itemId
      mapperAuthoritative
    (s, .appendItem item :: tail)
  | some existing =>
    let candidate := merged existing candidate
    -- the same item again: only the deltas that waited for it change it
    if normalized (preservedInputAuthority existing candidate) == normalized existing then
      s.flushPendingDeltas existing.itemId mapperAuthoritative
    else
      let item := upserted existing candidate
      let (s, tail) := ((s.put item).trackProvenance item).flushPendingDeltas item.itemId
        mapperAuthoritative
      (s, .upsertItem item :: tail)

end

/-! ## Provenance -/

/-- Lane, source and producer of an input that the ledger knows. -/
def sourceAuthority : SubmissionSource → Lane × Source × Producer
  | .cockpit => (.operator, .cockpitComposer, .operator)
  | .terminal => (.operator, .terminalControlled, .controlledTerminal)
  | .durable => (.agentBus, .durableInbox, .agentBus)

/-- The item with its producer. -/
def resolved (item : Item δ) (source : SubmissionSource) : Item δ :=
  let (lane, conversationSource, producer) := sourceAuthority source
  { item with
    lane := lane, source := conversationSource, revision := item.revision + 1
    provenance :=
      { item.provenance with strength := .exact, producer := some producer, reason := none } }

/-- `apply_provenance`: the verdict on a request. -/
def applyProvenance (s : ProjectionStore δ) (requestId : String)
    (source : Option SubmissionSource) : ProjectionStore δ × List (StoreMutation δ) :=
  let s := { s with provenanceDone := s.provenanceDone ++ [requestId] }
  match source, s.provenancePending.find? fun e => e.2 = requestId with
  | some source, some (itemId, _) =>
    match s.get itemId with
    | none => (s, [])
    | some item =>
      let item := resolved item source
      (s.put item, [.upsertItem item])
  | _, _ => (s, [])

end ProjectionStore

/-! ## Unrecognized shapes -/

/-- An unrecognized shape as an item. -/
def unknownVendorItem {δ : Type} (mapped : MappedUnknownVendor) (evidenceRef : String) :
    Item δ where
  itemId := mapped.itemId
  turnId := mapped.turnId
  parentItemId := mapped.parentItemId
  lane := .harness
  source := if mapped.live then .harnessLive else .nativeHistory
  provenance :=
    { strength := .nativeOnly
      origin := "unrecognized native shape (" ++ mapped.vendorType ++ ")"
      producer := some .harness
      observedAt := mapped.createdAt
      reason := some "unknown vendor evidence preserved; semantics never guessed" }
  role := mapped.role
  agent := mapped.agent
  kind := .unknownVendor
  phase := .unknown
  blocks := [⟨"unknown", .unknownVendor mapped.vendorType mapped.safeSummary evidenceRef⟩]
  createdAt := mapped.createdAt
  evidenceRef := some evidenceRef

end AgentsRemember.Conversation
