import AgentsRemember.Foundation.Keyed

/-!
# Inbox — Records

The operator inbox entry `ar-operator-inbox-entry/v2`
(`controlplane/operator_inbox_records.py`): a row of the inbox is a sequence of
snapshots under one id, each a copy of an earlier one with some fields updated.
Fields that no transition and no retention rule reads or writes are left out.

The fold keeps the last snapshot of each id, except that a pending snapshot
does not replace one that is terminal.
-/

namespace AgentsRemember.Inbox

/-! ## The vocabulary -/

/-- The states of a row. -/
inductive OperatorInboxState where
  | pending | landed | superseded | unresolved | expired | consumed | ladderResolved
  deriving DecidableEq

/-- Where a row came in. -/
inductive OperatorInboxVia where
  | chat | dashboard | cli
  deriving DecidableEq

/-- The roles of a session. -/
inductive AgentRole where
  | developer | operator | designer | strategist | orchestrator | manager | worker | reviewer
  | systemSpecialist | architect | curator | agent | system
  deriving DecidableEq

/-- The kinds of message. -/
inductive InboxMessageKind where
  | message | gateResponse | turnReport | masterHandover | nudge | escalation
  | degradationAlert | decisionItem | decisionRuling | dispatchBrief | stateSignal
  deriving DecidableEq

/-- How far the delivery of a row is. -/
inductive InboxDeliveryState where
  | queued | noHostedSession | delivered | unconfirmed
  deriving DecidableEq

/-- What an adapter said to a delivery. -/
inductive AdapterDeliveryState where
  | accepted | queued | rejected | unknown | completed | unsupported
  deriving DecidableEq

/-- The identity of a task document. -/
structure TaskDocumentRef where
  repository : String
  path : String
  deriving DecidableEq

/-! ## What a row is made of -/

/-- One structural mailbox plus its current private delivery correlations. -/
structure InboxAddress where
  taskDocumentRef : Option TaskDocumentRef := none
  lifecycleId : Option String := none
  agentId : Option String := none
  recipientRole : Option AgentRole := none

/-- Who owns a row. -/
structure InboxOwner where
  role : Option AgentRole := none
  taskDocumentRef : Option TaskDocumentRef := none
  agentId : Option String := none
  lifecycleId : Option String := none

/-- Where a row goes. -/
structure InboxRouting where
  address : InboxAddress
  owner : InboxOwner := {}

/-- What a row is about. -/
structure InboxSubject where
  taskDocumentRef : Option TaskDocumentRef := none
  seatRole : Option String := none
  agentId : Option String := none

/-- What a row says. -/
structure InboxMessage where
  ask : String
  response : String
  messageKind : InboxMessageKind := .message
  gateId : Option String := none
  artifactPath : Option String := none
  subject : InboxSubject := {}

/-- Who posted a row. -/
structure InboxPoster where
  createdBy : String
  createdVia : OperatorInboxVia
  senderAgentId : Option String := none
  senderRole : Option AgentRole := none

/-- One snapshot of a row. -/
structure OperatorInboxEntry where
  id : String
  ts : String
  state : OperatorInboxState
  lifecycleId : Option String := none
  agentId : Option String := none
  taskDocumentRef : Option TaskDocumentRef := none
  senderAgentId : Option String := none
  senderRole : Option AgentRole := none
  recipientRole : Option AgentRole := none
  gateId : Option String := none
  messageKind : InboxMessageKind := .message
  artifactPath : Option String := none
  subjectTaskDocumentRef : Option TaskDocumentRef := none
  seatRole : Option String := none
  subjectAgentId : Option String := none
  ask : String
  response : String
  createdAt : String
  createdBy : String
  createdVia : OperatorInboxVia
  deliveryState : InboxDeliveryState := .queued
  deliveredAt : Option String := none
  deliveredToSession : Option String := none
  deliveryDetail : Option String := none
  adapterDeliveryState : Option AdapterDeliveryState := none
  adapterRequestId : Option String := none
  adapterVendorCorrelationId : Option String := none
  adapterAcceptedAt : Option String := none
  adapterCompletedAt : Option String := none
  adapterDeliveryDetail : Option String := none
  consumedAt : Option String := none
  consumedBy : Option String := none
  consumedVia : Option OperatorInboxVia := none
  ladderResolvedAt : Option String := none
  ladderResolvedReason : Option String := none
  attemptCount : Nat := 0
  lastAttemptAt : Option String := none
  nextAttemptAt : Option String := none
  terminalAt : Option String := none
  terminalReason : Option String := none
  supersededBy : Option String := none
  ownerRole : Option AgentRole := none
  ownerTaskDocumentRef : Option TaskDocumentRef := none
  ownerAgentId : Option String := none
  ownerLifecycleId : Option String := none
  deriving DecidableEq

namespace OperatorInboxEntry

/-- Every state but pending is terminal. -/
def Terminal (entry : OperatorInboxEntry) : Prop := entry.state ≠ .pending

instance (entry : OperatorInboxEntry) : Decidable entry.Terminal :=
  inferInstanceAs (Decidable (entry.state ≠ .pending))

/-- When, by whom and where a row was marked consumed. -/
def consumption (entry : OperatorInboxEntry) :
    Option String × Option String × Option OperatorInboxVia :=
  (entry.consumedAt, entry.consumedBy, entry.consumedVia)

end OperatorInboxEntry

/-! ## Making entries -/

/-- At least one mailbox key is required of an entry. -/
def requireInboxAddress (address : InboxAddress) : Except String Unit :=
  if address.taskDocumentRef = none ∧ address.lifecycleId = none ∧ address.agentId = none ∧
      address.recipientRole = none then
    .error "operator inbox requires task_document_ref, lifecycle_id, agent_id, or recipient_role"
  else .ok ()

/-- `create_operator_inbox_entry`: a row that is pending. -/
def createOperatorInboxEntry (message : InboxMessage) (entryId now : String)
    (routing : InboxRouting) (poster : InboxPoster) : Except String OperatorInboxEntry := do
  let address := routing.address
  let owner := routing.owner
  let subject := message.subject
  requireInboxAddress address
  return {
    id := entryId
    ts := now
    state := .pending
    lifecycleId := address.lifecycleId
    agentId := address.agentId
    taskDocumentRef := address.taskDocumentRef
    senderAgentId := poster.senderAgentId
    senderRole := poster.senderRole
    recipientRole := address.recipientRole
    gateId := message.gateId
    messageKind := message.messageKind
    artifactPath := message.artifactPath
    subjectTaskDocumentRef := subject.taskDocumentRef
    seatRole := subject.seatRole
    subjectAgentId := subject.agentId
    ask := message.ask
    response := message.response
    createdAt := now
    createdBy := poster.createdBy
    createdVia := poster.createdVia
    ownerRole := owner.role
    ownerTaskDocumentRef := owner.taskDocumentRef
    ownerAgentId := owner.agentId
    ownerLifecycleId := owner.lifecycleId }

/-- The snapshot that marks an entry consumed; none where it is marked already. -/
def consumeOperatorInboxEntry (entry : OperatorInboxEntry) (now consumedBy : String)
    (consumedVia : OperatorInboxVia) : Option OperatorInboxEntry :=
  if entry.consumedAt ≠ none then none
  else
    some { entry with
      ts := now
      consumedAt := some now
      consumedBy := some consumedBy
      consumedVia := some consumedVia }

/-- A created entry is a new row, pending and not consumed. -/
theorem createOperatorInboxEntry_ok {message : InboxMessage} {entryId now : String}
    {routing : InboxRouting} {poster : InboxPoster} {entry : OperatorInboxEntry}
    (h : createOperatorInboxEntry message entryId now routing poster = .ok entry) :
    entry.id = entryId ∧ entry.state = .pending ∧ entry.consumption = (none, none, none) := by
  unfold createOperatorInboxEntry at h
  dsimp only at h
  cases hrequire : requireInboxAddress routing.address with
  | error e =>
    rw [hrequire] at h
    cases h
  | ok u =>
    rw [hrequire] at h
    cases h
    exact ⟨rfl, rfl, rfl⟩

/-! ## The fold -/

/-- The rows of a log by id. -/
abbrev InboxFold := List (String × OperatorInboxEntry)

/-- One more snapshot: a pending one is passed over where the row is terminal. -/
def foldEntry (current : InboxFold) (entry : OperatorInboxEntry) : InboxFold :=
  match current.lookup entry.id with
  | some previous =>
    if previous.state ≠ .pending ∧ entry.state = .pending then current
    else Keyed.set current entry.id entry
  | none => Keyed.set current entry.id entry

/-- The fold of a log. -/
def foldOperatorInboxEntries (entries : List OperatorInboxEntry) : InboxFold :=
  entries.foldl foldEntry []

/-- The row of an id, as the fold of a log reports it. -/
def rowOf (log : List OperatorInboxEntry) (id : String) : Option OperatorInboxEntry :=
  (foldOperatorInboxEntries log).lookup id

/-- What the fold makes of a snapshot on top of the row it has. -/
def overlaid (previous : Option OperatorInboxEntry) (entry : OperatorInboxEntry) :
    OperatorInboxEntry :=
  match previous with
  | some row => if row.state ≠ .pending ∧ entry.state = .pending then row else entry
  | none => entry

theorem foldOperatorInboxEntries_snoc (log : List OperatorInboxEntry)
    (entry : OperatorInboxEntry) : foldOperatorInboxEntries (log ++ [entry]) =
      foldEntry (foldOperatorInboxEntries log) entry := by
  simp [foldOperatorInboxEntries, List.foldl_append]

theorem lookup_foldEntry (current : InboxFold) (entry : OperatorInboxEntry) (id : String) :
    (foldEntry current entry).lookup id =
      if entry.id = id then some (overlaid (current.lookup id) entry) else current.lookup id := by
  unfold foldEntry overlaid
  by_cases hid : entry.id = id
  · subst hid
    rw [if_pos rfl]
    cases hrow : current.lookup entry.id with
    | none => simp [Keyed.lookup_set]
    | some row =>
      dsimp only
      split
      · exact hrow
      · simp [Keyed.lookup_set]
  · rw [if_neg hid]
    cases current.lookup entry.id with
    | none => simp [Keyed.lookup_set, hid]
    | some row =>
      dsimp only
      split
      · rfl
      · simp [Keyed.lookup_set, hid]

/-- What an append does to the rows. -/
theorem rowOf_snoc (log : List OperatorInboxEntry) (entry : OperatorInboxEntry) (id : String) :
    rowOf (log ++ [entry]) id =
      if entry.id = id then some (overlaid (rowOf log id) entry) else rowOf log id := by
  unfold rowOf
  rw [foldOperatorInboxEntries_snoc, lookup_foldEntry]

/-- The row of an id is one of its snapshots. -/
theorem mem_of_rowOf {log : List OperatorInboxEntry} {id : String} {row : OperatorInboxEntry}
    (h : rowOf log id = some row) : row ∈ log ∧ row.id = id := by
  induction log using List.reverseRecOn with
  | nil => cases h
  | append_singleton log entry ih =>
    rw [rowOf_snoc] at h
    split at h
    · rename_i hid
      rw [Option.some.injEq] at h
      unfold overlaid at h
      cases hrow : rowOf log id with
      | none =>
        rw [hrow] at h
        subst h
        simp [hid]
      | some previous =>
        rw [hrow] at h ih
        dsimp only at h
        split at h
        · rw [h] at ih
          exact ⟨List.mem_append_left _ (ih rfl).1, (ih rfl).2⟩
        · subst h
          simp [hid]
    · exact ⟨List.mem_append_left _ (ih h).1, (ih h).2⟩

theorem rowOf_isSome_iff {log : List OperatorInboxEntry} {id : String} :
    (rowOf log id).isSome ↔ ∃ entry ∈ log, entry.id = id := by
  induction log using List.reverseRecOn with
  | nil => simp [rowOf, foldOperatorInboxEntries]
  | append_singleton log entry ih =>
    rw [rowOf_snoc]
    by_cases hid : entry.id = id
    · simp [hid]
    · rw [if_neg hid, ih]
      simp [hid]

/-- Snapshots kept or dropped by their id leave a row as it was or none. -/
theorem rowOf_filter (p : String → Bool) (log : List OperatorInboxEntry) (id : String) :
    rowOf (log.filter fun r => p r.id) id = if p id then rowOf log id else none := by
  induction log using List.reverseRecOn with
  | nil => simp [rowOf, foldOperatorInboxEntries]
  | append_singleton log entry ih =>
    rw [List.filter_append]
    by_cases hkeep : p entry.id
    · rw [List.filter_cons_of_pos (by simpa using hkeep), List.filter_nil, rowOf_snoc, rowOf_snoc,
        ih]
      by_cases hid : entry.id = id
      · subst hid
        simp [hkeep]
      · simp [hid]
    · rw [List.filter_cons_of_neg (by simpa using hkeep), List.filter_nil, List.append_nil, ih,
        rowOf_snoc]
      by_cases hid : entry.id = id
      · subst hid
        simp [hkeep]
      · simp [hid]

theorem nodup_fold (log : List OperatorInboxEntry) :
    ((foldOperatorInboxEntries log).map Prod.fst).Nodup := by
  induction log using List.reverseRecOn with
  | nil => simp [foldOperatorInboxEntries]
  | append_singleton log entry ih =>
    rw [foldOperatorInboxEntries_snoc]
    unfold foldEntry
    split
    · split
      · exact ih
      · exact Keyed.nodup_keys_set ih _ _
    · exact Keyed.nodup_keys_set ih _ _

end AgentsRemember.Inbox
