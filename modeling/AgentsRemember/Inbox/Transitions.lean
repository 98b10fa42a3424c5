import AgentsRemember.Inbox.Records

/-!
# Inbox — Transitions

What one row's next snapshot says (`controlplane/operator_inbox_transitions.py`),
as a function of the row that a writer has in its hands. Those that resolve a
row are applied to the latest row under the store's lock, and give nothing
where it is terminal already; the others are applied to the row that the writer
folded, and what they give is appended later.
-/

namespace AgentsRemember.Inbox

/-- What an adapter says of a delivery. -/
structure AdapterReceipt where
  deliveryState : Option AdapterDeliveryState := none
  requestId : Option String := none
  vendorCorrelationId : Option String := none
  acceptedAt : Option String := none
  detail : Option String := none

/-- One attempt to deliver a row. -/
structure DeliveryAttempt where
  deliveryState : InboxDeliveryState
  deliveredToSession : Option String := none
  detail : Option String := none
  adapter : AdapterReceipt := {}
  landed : Bool := false

/-- What a renewal changes. -/
structure InboxRenewal where
  response : Option String := none
  subject : InboxSubject := {}
  readdressTo : Option InboxOwner := none

/-- What an adapter says of a completion. -/
structure AdapterCompletion where
  vendorCorrelationId : Option String := none
  detail : Option String := none

/-- Why a row expires, and to whom it goes. -/
structure ExpiryOptions where
  reason : String
  readdressTo : Option InboxOwner := none

/-- What the timestamps mean: how long before `now` a stamp is, in
microseconds, and the stamp that lies so long after one. None where a stamp
cannot be read. -/
structure Clock where
  age : (now stamp : String) → Option Int
  later : (now : String) → (microseconds : Int) → Option String

/-! ## The redelivery schedule -/

/-- Microseconds. -/
def second : Int := 1000000

/-- The waits between two attempts. -/
def backoffScheduleSeconds : List Int := [30, 60, 300, 900, 3600, 21600]

/-- The floor under every wait. -/
def minRedeliveryInterval : Int := 900 * second

/-- The wait before the next attempt, clamped to the end of the schedule. -/
def backoffForAttempt (attemptCount : Nat) : Int :=
  backoffScheduleSeconds.getD (min attemptCount (backoffScheduleSeconds.length - 1)) 0 * second

/-- The effective redelivery floor; one below the minimum is refused. -/
def requireRedeliveryFloor (floor : Option Int) : Option Int :=
  match floor with
  | none => some minRedeliveryInterval
  | some floor => if floor < minRedeliveryInterval then none else some floor

/-- The stamp of the next attempt, or none where the call raises. -/
def nextAttemptAt (clock : Clock) (now : String) (attemptCount : Nat) (floor : Option Int) :
    Option String :=
  (requireRedeliveryFloor floor).bind fun floor =>
    clock.later now (max (backoffForAttempt attemptCount) floor)

/-! ## Snapshots -/

/-- The delivery address moved onto an owner, who is recorded as the routed one. -/
def readdress (entry : OperatorInboxEntry) (owner : InboxOwner) : OperatorInboxEntry :=
  { entry with
    recipientRole := owner.role
    agentId := owner.agentId
    lifecycleId := owner.lifecycleId
    taskDocumentRef := owner.taskDocumentRef
    ownerRole := owner.role
    ownerTaskDocumentRef := owner.taskDocumentRef
    ownerAgentId := owner.agentId
    ownerLifecycleId := owner.lifecycleId }

/-- The delivery evidence of one attempt. -/
def deliveryEvidenceUpdate (entry : OperatorInboxEntry) (attempt : DeliveryAttempt)
    (now : String) : OperatorInboxEntry :=
  let adapter := attempt.adapter
  { entry with
    ts := now
    deliveryState := attempt.deliveryState
    deliveredAt := if attempt.deliveryState = .delivered then some now else entry.deliveredAt
    deliveredToSession := attempt.deliveredToSession
    deliveryDetail := attempt.detail
    adapterDeliveryState := adapter.deliveryState.or entry.adapterDeliveryState
    adapterRequestId := (adapter.requestId.filter (· ≠ "")).or entry.adapterRequestId
    adapterVendorCorrelationId :=
      (adapter.vendorCorrelationId.filter (· ≠ "")).or entry.adapterVendorCorrelationId
    adapterAcceptedAt := (adapter.acceptedAt.filter (· ≠ "")).or entry.adapterAcceptedAt
    adapterDeliveryDetail := adapter.detail.or entry.adapterDeliveryDetail
    attemptCount := entry.attemptCount + 1
    lastAttemptAt := some now }

/-- Whether an attempt lands the row: accepted at a turn boundary. -/
def DeliveryAttempt.lands (attempt : DeliveryAttempt) (entry : OperatorInboxEntry) : Bool :=
  attempt.landed && attempt.adapter.deliveryState = some .accepted && entry.state = .pending

/-- The snapshot of an attempt that does not land, or none where scheduling the
next one raises. -/
def deliveredSnapshot (clock : Clock) (entry : OperatorInboxEntry) (attempt : DeliveryAttempt)
    (now : String) (floor : Option Int) : Option OperatorInboxEntry :=
  let update := deliveryEvidenceUpdate entry attempt now
  if entry.state = .pending then
    (nextAttemptAt clock now (entry.attemptCount + 1) floor).map fun next =>
      { update with nextAttemptAt := some next }
  else some { update with nextAttemptAt := entry.nextAttemptAt }

/-- A pending row resolved: none where it is terminal already. -/
def resolvePending (latest : OperatorInboxEntry) (state : OperatorInboxState)
    (now reason : String) : Option OperatorInboxEntry :=
  if latest.state ≠ .pending then none
  else
    some { latest with
      ts := now
      state := state
      terminalAt := some now
      terminalReason := some reason
      nextAttemptAt := none }

/-- The landing that an accepted attempt writes. -/
def landLatest (attempt : DeliveryAttempt) (now : String) (latest : OperatorInboxEntry) :
    Option OperatorInboxEntry :=
  if latest.state ≠ .pending then none
  else
    resolvePending (deliveryEvidenceUpdate latest attempt now) .landed now
      "adapter-accepted-at-turn-boundary"

/-- `mark_landed`. -/
def markLanded (now reason : String) (latest : OperatorInboxEntry) :
    Option OperatorInboxEntry :=
  resolvePending latest .landed now reason

/-- `mark_superseded`. -/
def markSuperseded (now reason : String) (supersededBy : Option String)
    (latest : OperatorInboxEntry) : Option OperatorInboxEntry :=
  (resolvePending latest .superseded now reason).map ({ · with supersededBy })

/-- `mark_unresolved`. -/
def markUnresolved (now reason : String) (latest : OperatorInboxEntry) :
    Option OperatorInboxEntry :=
  resolvePending latest .unresolved now reason

/-- An expired row may move to an inspection mailbox. -/
def expiryTransition (now : String) (options : ExpiryOptions) (latest : OperatorInboxEntry) :
    Option OperatorInboxEntry :=
  (resolvePending latest .expired now options.reason).map fun expired =>
    match options.readdressTo with
    | none => expired
    | some owner => readdress expired owner

/-- A pending row on its current qualified owner, with a fresh attempt clock. -/
def rebindSnapshot (entry : OperatorInboxEntry) (owner : InboxOwner) (now : String) :
    OperatorInboxEntry :=
  { readdress entry owner with
    ts := now
    deliveryState := .queued
    deliveredAt := none
    deliveredToSession := none
    deliveryDetail := none
    adapterDeliveryState := none
    adapterRequestId := none
    adapterVendorCorrelationId := none
    adapterAcceptedAt := none
    adapterCompletedAt := none
    adapterDeliveryDetail := none
    attemptCount := 0
    lastAttemptAt := none
    nextAttemptAt := none }

/-- The snapshot of a completed delivery. -/
def completionSnapshot (entry : OperatorInboxEntry) (completion : AdapterCompletion)
    (now : String) : OperatorInboxEntry :=
  { entry with
    ts := now
    adapterDeliveryState := some .completed
    adapterVendorCorrelationId :=
      (completion.vendorCorrelationId.filter (· ≠ "")).or entry.adapterVendorCorrelationId
    adapterCompletedAt := some now
    adapterDeliveryDetail := completion.detail }

/-- A pending row refreshed in place. -/
def renewSnapshot (entry : OperatorInboxEntry) (renewal : InboxRenewal) (now : String) :
    OperatorInboxEntry :=
  let renewed := { entry with
    ts := now
    response := renewal.response.getD entry.response
    subjectTaskDocumentRef := renewal.subject.taskDocumentRef.or entry.subjectTaskDocumentRef
    seatRole := renewal.subject.seatRole.or entry.seatRole
    subjectAgentId := renewal.subject.agentId.or entry.subjectAgentId }
  match renewal.readdressTo with
  | none => renewed
  | some owner => readdress renewed owner

/-! ## What a snapshot keeps -/

/-- A snapshot made of another says as much about who the row is, whether it is
terminal and how, and its consumption. -/
structure Keeps (entry snapshot : OperatorInboxEntry) : Prop where
  id : snapshot.id = entry.id
  gate : snapshot.gateId = entry.gateId
  state : snapshot.state = entry.state
  consumption : snapshot.consumption = entry.consumption

/-- A transition resolves pending rows and changes nothing else of these. -/
structure Resolves (transition : OperatorInboxEntry → Option OperatorInboxEntry) : Prop where
  pending : ∀ {latest updated}, transition latest = some updated → latest.state = .pending
  id : ∀ {latest updated}, transition latest = some updated → updated.id = latest.id
  gate : ∀ {latest updated}, transition latest = some updated → updated.gateId = latest.gateId
  terminal : ∀ {latest updated}, transition latest = some updated → updated.Terminal
  consumption : ∀ {latest updated}, transition latest = some updated →
    updated.consumption = latest.consumption

theorem deliveredSnapshot_keeps {clock : Clock} {entry snapshot : OperatorInboxEntry}
    {attempt : DeliveryAttempt} {now : String} {floor : Option Int}
    (h : deliveredSnapshot clock entry attempt now floor = some snapshot) :
    Keeps entry snapshot := by
  unfold deliveredSnapshot at h
  dsimp only at h
  split at h
  · obtain ⟨next, -, rfl⟩ := Option.map_eq_some_iff.mp h
    exact ⟨rfl, rfl, rfl, rfl⟩
  · cases h
    exact ⟨rfl, rfl, rfl, rfl⟩

theorem rebindSnapshot_keeps (entry : OperatorInboxEntry) (owner : InboxOwner) (now : String) :
    Keeps entry (rebindSnapshot entry owner now) := ⟨rfl, rfl, rfl, rfl⟩

theorem completionSnapshot_keeps (entry : OperatorInboxEntry) (completion : AdapterCompletion)
    (now : String) : Keeps entry (completionSnapshot entry completion now) := ⟨rfl, rfl, rfl, rfl⟩

theorem renewSnapshot_keeps (entry : OperatorInboxEntry) (renewal : InboxRenewal)
    (now : String) : Keeps entry (renewSnapshot entry renewal now) := by
  unfold renewSnapshot
  cases renewal.readdressTo <;> exact ⟨rfl, rfl, rfl, rfl⟩

theorem resolvePending_eq {latest updated : OperatorInboxEntry} {state : OperatorInboxState}
    {now reason : String} (h : resolvePending latest state now reason = some updated) :
    latest.state = .pending ∧ updated.id = latest.id ∧ updated.gateId = latest.gateId ∧
      updated.state = state ∧ updated.consumption = latest.consumption := by
  unfold resolvePending at h
  split at h
  · cases h
  · rename_i hpending
    cases h
    exact ⟨Decidable.not_not.mp hpending, rfl, rfl, rfl, rfl⟩

theorem resolves_of_eq {transition : OperatorInboxEntry → Option OperatorInboxEntry}
    (h : ∀ latest updated, transition latest = some updated → latest.state = .pending ∧
      updated.id = latest.id ∧ updated.gateId = latest.gateId ∧ updated.Terminal ∧
      updated.consumption = latest.consumption) : Resolves transition where
  pending h' := (h _ _ h').1
  id h' := (h _ _ h').2.1
  gate h' := (h _ _ h').2.2.1
  terminal h' := (h _ _ h').2.2.2.1
  consumption h' := (h _ _ h').2.2.2.2

theorem resolves_resolvePending {state : OperatorInboxState} (hstate : state ≠ .pending)
    (now reason : String) : Resolves fun latest => resolvePending latest state now reason := by
  apply resolves_of_eq
  intro latest updated h
  obtain ⟨hpending, hid, hgate, hs, hconsumption⟩ := resolvePending_eq h
  exact ⟨hpending, hid, hgate, by rw [OperatorInboxEntry.Terminal, hs]; exact hstate, hconsumption⟩

theorem resolves_markLanded (now reason : String) : Resolves (markLanded now reason) :=
  resolves_resolvePending (by decide) now reason

theorem resolves_markUnresolved (now reason : String) : Resolves (markUnresolved now reason) :=
  resolves_resolvePending (by decide) now reason

theorem resolves_markSuperseded (now reason : String) (supersededBy : Option String) :
    Resolves (markSuperseded now reason supersededBy) := by
  apply resolves_of_eq
  intro latest updated h
  obtain ⟨superseded, hsuperseded, rfl⟩ := Option.map_eq_some_iff.mp h
  obtain ⟨hpending, hid, hgate, hs, hconsumption⟩ := resolvePending_eq hsuperseded
  refine ⟨hpending, hid, hgate, ?_, hconsumption⟩
  show superseded.state ≠ .pending
  rw [hs]
  decide

theorem resolves_expiryTransition (now : String) (options : ExpiryOptions) :
    Resolves (expiryTransition now options) := by
  apply resolves_of_eq
  intro latest updated h
  obtain ⟨expired, hexpired, hupdated⟩ := Option.map_eq_some_iff.mp h
  obtain ⟨hpending, hid, hgate, hs, hconsumption⟩ := resolvePending_eq hexpired
  have hterminal : expired.Terminal := by
    rw [OperatorInboxEntry.Terminal, hs]
    decide
  cases hreaddress : options.readdressTo with
  | none =>
    rw [hreaddress] at hupdated
    subst hupdated
    exact ⟨hpending, hid, hgate, hterminal, hconsumption⟩
  | some owner =>
    rw [hreaddress] at hupdated
    subst hupdated
    exact ⟨hpending, hid, hgate, hterminal, hconsumption⟩

theorem resolves_landLatest (attempt : DeliveryAttempt) (now : String) :
    Resolves (landLatest attempt now) := by
  apply resolves_of_eq
  intro latest updated h
  unfold landLatest at h
  split at h
  · cases h
  · obtain ⟨hpending, hid, hgate, hs, hconsumption⟩ := resolvePending_eq h
    refine ⟨hpending, hid, hgate, ?_, hconsumption⟩
    rw [OperatorInboxEntry.Terminal, hs]
    decide

end AgentsRemember.Inbox
