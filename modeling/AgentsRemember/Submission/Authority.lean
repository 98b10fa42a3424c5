import AgentsRemember.Submission.Ledger

/-!
# Submission — Authority

The submission authority of one hosted harness bridge
(`harness_submission_authority.HarnessSubmissionAuthority`): the
dispatch timeline, the pinned active operation and the adapter
conversation over the ledger's rows.

Every `async with self._lock` block of the source is one function here.
What a coroutine holds across an `await` is explicit state: the
dispatcher's position, `Dispatcher`, and the reconciliations in flight.
A block that reads the clock reads it once, as `at_`.
-/

namespace AgentsRemember.Submission

/-- The bounds of one authority. The constructor refuses the rest. -/
structure SubmissionLimits where
  timeline : Nat
  ledger : Nat
  timeline_pos : 1 ≤ timeline
  timeline_le_ledger : timeline ≤ ledger

/-- What is fixed when the authority is constructed: its epoch, its
bounds, whether its one adapter takes assets, and the digest function. -/
structure AuthorityConfig where
  bridgeEpoch : String
  limits : SubmissionLimits
  assetSubmitCapable : Bool
  payloadDigest : String → List AssetReference → String

/-- What a caller is refused with. -/
inductive HarnessError where
  | control (message : String)
  | bridgeEpochMismatch (expected actual : String)
  | requestConflict (message : String)
  | valueError (message : String)
  deriving DecidableEq

/-- Whatever object the adapter method returned. -/
inductive MethodResult where
  | receipt (r : SubmissionReceipt)
  | set (r : SetResult)
  | other

/-- Where the one dispatcher task stands between two lock blocks. A
position names the record object it remembers by its ordinal. -/
inductive Dispatcher where
  /-- awaiting `_wake` -/
  | waiting
  /-- about to run `_dispatch_one` -/
  | looking
  /-- `preflight_operation` is in flight -/
  | preflight (n : Nat)
  /-- preflight was declined before any send -/
  | declined (n : Nat) (detail : String)
  /-- preflight disconnected and may have sent -/
  | preflightClaim (n : Nat) (detail : String) (vendor : Option String)
  /-- preflight passed -/
  | claiming (n : Nat)
  /-- the adapter method is in flight -/
  | calling (n : Nat)
  /-- the adapter certified that nothing was sent -/
  | presendBusy (n : Nat) (detail : String)
  /-- the adapter raised after a possible send -/
  | possibleSend (n : Nat) (detail : String) (vendor : Option String)
  /-- the adapter method returned -/
  | returned (n : Nat) (result : MethodResult)
  /-- applying the result raised -/
  | incoherent (n : Nat) (error : String)
  /-- an escaped exception ended the task -/
  | stopped

/-- What the authority did that others can see, in order: the calls it
made on the adapter and the withdrawals it granted. -/
inductive HistoryEvent where
  /-- a submit or set method was invoked for the record -/
  | invoked (n : Nat)
  /-- that invocation came back, with a result or an exception -/
  | answered (n : Nat)
  /-- a busy or disconnected adapter certified the send never happened -/
  | requeued (n : Nat)
  | withdrawn (n : Nat)

/-- `HarnessSubmissionAuthority` behind its lock. -/
structure Authority where
  config : AuthorityConfig
  objects : Objects
  ledger : SubmissionLedger
  snapshot : AdapterSnapshot
  timeline : List OperationKey
  active : Option OperationKey
  respondedInteractions : List String
  accepting : Bool
  lastAdapterSequence : Nat
  consumedCompletions : List ControlOperationRef
  wake : Bool
  dispatcher : Dispatcher
  /-- reconciliations between their two lock blocks -/
  reconciling : List (String × ControlOperationRef)
  history : List HistoryEvent

/-- A started authority: `__init__` and `start`. -/
def Authority.start (config : AuthorityConfig) (snapshot : AdapterSnapshot) : Authority :=
  { config := config, objects := fun _ => none, ledger := {}, snapshot := snapshot,
    timeline := [], active := none, respondedInteractions := [], accepting := true,
    lastAdapterSequence := 0, consumedCompletions := [], wake := false,
    dispatcher := .waiting, reconciling := [], history := [] }

/-- `deque(maxlen=limit).append`. -/
def pushBounded {α : Type} (limit : Nat) (xs : List α) (x : α) : List α :=
  (xs ++ [x]).drop ((xs.length + 1) - limit)

namespace Authority

/-- The epoch of the bridge. -/
def bridgeEpoch (a : Authority) : String := a.config.bridgeEpoch

/-- The record object a key names in the ledger. -/
def recordByKey (a : Authority) (key : OperationKey) : Option OperationRecord :=
  (a.ledger.byKey key).bind a.objects

/-- The record of a prompt. -/
def recordByRequestId (a : Authority) (requestId : String) : Option OperationRecord :=
  (a.ledger.byRequestId requestId).bind a.objects

/-- The active record. -/
def activeRecord (a : Authority) : Option OperationRecord :=
  a.active.bind a.recordByKey

/-- A record, written. -/
def put (a : Authority) (record : OperationRecord) : Authority :=
  { a with objects := a.objects.put record }

/-- The row of a record is the latest used. -/
def touch (a : Authority) (record : OperationRecord) : Authority :=
  { a with ledger := a.ledger.touch record.key }

/-- Whether dispatch still needs this row. -/
def pinned (a : Authority) (key : OperationKey) : Bool :=
  some key == a.active || decide (key ∈ a.timeline)

/-- The adapter is ready and idle. -/
def snapshotAllowsDispatch (a : Authority) : Bool :=
  a.snapshot.control = .ready ∧ a.snapshot.activity = .idle

/-- The only operation there is may go out at once. -/
def headIsDispatchable (a : Authority) (key : OperationKey) : Bool :=
  a.timeline = [key] ∧ a.active = none ∧ a.snapshotAllowsDispatch

/-- Whether one more operation fits: a free timeline slot and a ledger
row to spend. Asking may evict. -/
def hasAdmissionRoom (a : Authority) : Bool × Authority :=
  if a.ledger.liveCount a.objects a.active < a.config.limits.timeline then
    let (room, ledger) := a.ledger.makeRoom a.objects a.pinned a.config.limits.ledger
    (room, { a with ledger := ledger })
  else (false, a)

/-- Drop the head: it is popped when it leads the timeline and removed
from wherever it stands otherwise. -/
def releaseHead (a : Authority) (record : OperationRecord)
    (consumeCompletion : Bool) : Authority :=
  { a with
    active := if a.active = some record.key then none else a.active
    timeline := a.timeline.erase record.key
    consumedCompletions := if consumeCompletion
      then pushBounded a.config.limits.ledger a.consumedCompletions record.ref
      else a.consumedCompletions
    objects := a.objects.put { record with bufferedCompletionSequence := none }
    respondedInteractions := []
    ledger := a.ledger.touch record.key }

/-! ## Admission -/

/-- What a submitter is answered. -/
inductive SubmitAnswer where
  | receipt (r : SubmissionReceipt)
  /-- the submitter waits on the record's future -/
  | waiting (n : Nat)

/-- The caller-supplied request id of a prompt is never empty: the IPC
layer requires text and the bridge mints one where none is given. -/
structure AdmittedRequest where
  request : PromptRequest
  requestId_ne : request.requestId ≠ ""

/-- The hosted harness or the adapter cannot carry this prompt at all. -/
def unsupportedPrompt (a : Authority) (request : PromptRequest) : Option String :=
  if a.snapshot.control = .unsupported then
    some "hosted harness does not support native prompt control"
  else if request.assets ≠ [] ∧ a.config.assetSubmitCapable = false then
    some "hosted harness does not support asset submissions"
  else none

/-- `submit`, under the lock. -/
def submit (a : Authority) (submission : AdmittedRequest) :
    Except HarnessError SubmitAnswer × Authority :=
  let request := submission.request
  if a.accepting = false then
    (.error (.control "submission authority is stopped"), a)
  else if request.expectedBridgeEpoch.any (· ≠ a.bridgeEpoch) then
    (.error (.bridgeEpochMismatch (request.expectedBridgeEpoch.getD "") a.bridgeEpoch), a)
  else
    let digest := a.config.payloadDigest request.text request.assets
    match a.recordByRequestId request.requestId with
    | some prior =>
      if prior.source ≠ some request.source ∨ prior.payloadDigest ≠ some digest then
        (.error (.requestConflict
          s!"request id {pyRepr request.requestId} already belongs to its first source/payload"), a)
      else (.ok (.receipt (prior.duplicateReceipt a.bridgeEpoch)), a.touch prior)
    | none =>
      -- looking for room may evict settled records
      match a.hasAdmissionRoom with
      | (false, a) =>
        (.ok (.receipt
          { requestId := request.requestId, acceptance := .rejected,
            submittedAt := request.submittedAt,
            detail := some "submission ledger is full of live or unresolved operations",
            bridgeEpoch := some a.bridgeEpoch }), a)
      | (true, a) =>
        let (ref, ledger) := a.ledger.nextRef a.bridgeEpoch .prompt (some request.requestId)
        let record : OperationRecord :=
          { ref := ref, state := .queued, submittedAt := request.submittedAt,
            updatedAt := request.submittedAt, source := some request.source,
            payloadDigest := some digest, text := some request.text,
            detail := some "queued inside the authoritative control bridge",
            assets := request.assets }
        let a := { a with ledger := ledger.enrol record }
        -- an unsupported prompt is enrolled and settled, and never queued
        match a.unsupportedPrompt request with
        | some detail =>
          let record := record.markTerminal .unsupported (some detail) request.submittedAt
          (.ok (.receipt (record.receipt .unsupported a.bridgeEpoch)), a.put record)
        | none =>
          let a := { a with timeline := a.timeline ++ [record.key], wake := true }
          if a.headIsDispatchable record.key then
            (.ok (.waiting ref.sequence),
              a.put { record with resultFuture := some .waiting })
          else
            (.ok (.receipt (record.receipt .queued a.bridgeEpoch)), a.put record)

/-- The two setters. -/
inductive SetterKind where
  | setModel | setEffort

/-- The operation of a setter. -/
def SetterKind.kind : SetterKind → ControlOperationKind
  | .setModel => .setModel
  | .setEffort => .setEffort

/-- What the caller of a setter is answered. -/
inductive SetterAnswer where
  | result (r : SetResult)
  | waiting (n : Nat)

/-- `_admit_setter`, behind `set_model` and `set_effort`. -/
def admitSetter (a : Authority) (kind : SetterKind) (requestedValue at_ : String) :
    Except HarnessError SetterAnswer × Authority :=
  if a.accepting = false then
    (.error (.control "submission authority is stopped"), a)
  else if a.snapshot.control = .unsupported then
    (.ok (.result
      { ok := false, acceptance := .unsupported, requestedValue := requestedValue,
        detail := some "hosted harness does not support native capability control" }), a)
  else match a.hasAdmissionRoom with
    | (false, a) =>
      (.ok (.result
        { ok := false, acceptance := .unknown, requestedValue := requestedValue,
          detail := some "operation ledger is full of live or unresolved operations" }), a)
    | (true, a) =>
      let (ref, ledger) := a.ledger.nextRef a.bridgeEpoch kind.kind
      let record : OperationRecord :=
        { ref := ref, state := .queued, submittedAt := at_, updatedAt := at_,
          requestedValue := some requestedValue,
          detail := some "queued in the authoritative ordinary-operation timeline",
          resultFuture := some .waiting }
      (.ok (.waiting ref.sequence),
        { a with
          ledger := ledger.enrol record
          timeline := a.timeline ++ [record.key]
          wake := true
          objects := a.objects.put record })

/-- `set_model`. -/
def setModel (a : Authority) (modelKey at_ : String) := a.admitSetter .setModel modelKey at_

/-- `set_effort`. -/
def setEffort (a : Authority) (effort at_ : String) := a.admitSetter .setEffort effort at_

/-! ## Withdrawal and operator resolution -/

/-- How a withdrawal comes out. -/
inductive WithdrawalOutcome where
  | withdrawn | notWithdrawable | notFound

/-- The answer of a withdrawal. -/
structure WithdrawalResult where
  requestId : String
  outcome : WithdrawalOutcome
  state : Option SubmissionLifecycleState
  withdrawnAt : Option String := none
  detail : Option String := none
  /-- the exact body, which crosses back once -/
  recovery : Option (Option String × List AssetReference) := none

/-- `withdraw`, under the lock. -/
def withdraw (a : Authority) (expectedBridgeEpoch requestId : String)
    (cockpitOnly : Bool) (at_ : String) : Except HarnessError WithdrawalResult × Authority :=
  if expectedBridgeEpoch ≠ a.bridgeEpoch then
    (.error (.bridgeEpochMismatch expectedBridgeEpoch a.bridgeEpoch), a)
  else
    let notFound : WithdrawalResult :=
      { requestId := requestId, outcome := .notFound, state := none,
        detail := some "submission is not retained for this cockpit authority" }
    match a.recordByRequestId requestId with
    | none => (.ok notFound, a)
    | some record =>
      if cockpitOnly ∧ record.source ≠ some .cockpit then (.ok notFound, a)
      else if record.state = .withdrawn then
        (.ok { requestId := requestId, outcome := .withdrawn, state := some .withdrawn,
               withdrawnAt := some record.updatedAt, detail := record.detail }, a)
      else if record.state ≠ .queued then
        (.ok { requestId := requestId, outcome := .notWithdrawable, state := some record.state,
               detail := some s!"submission is already {record.state.wire}" }, a)
      else if record.key ∉ a.timeline then
        -- `deque.remove` of what is not there
        (.error (.valueError "deque.remove(x): x not in deque"), a)
      else
        let tombstone := record.markTerminal .withdrawn
          (some "queued submission was withdrawn") at_
        let tombstone := tombstone.resolve
          (.receipt (tombstone.receipt .rejected a.bridgeEpoch))
        (.ok { requestId := requestId, outcome := .withdrawn, state := some .withdrawn,
               withdrawnAt := some at_, detail := tombstone.detail,
               recovery := some (record.text, record.assets) },
          { a with
            timeline := a.timeline.erase record.key
            objects := a.objects.put tombstone
            wake := true
            history := a.history ++ [.withdrawn record.ref.sequence] })

/-- What an operator says of an operation. -/
inductive OperationResolution where
  | applied | notApplied

/-- `resolve_operation`, under the lock. -/
def resolveOperation (a : Authority) (operationId : String) (kind : ControlOperationKind)
    (resolution : OperationResolution) (detail at_ : String) :
    Except HarnessError Unit × Authority :=
  match a.recordByKey (kind, operationId) with
  | none => (.error (.control "only an unknown operation can be operator-resolved"), a)
  | some record =>
    if record.state ≠ .unknown then
      (.error (.control "only an unknown operation can be operator-resolved"), a)
    else
      let state := match resolution with
        | .applied => SubmissionLifecycleState.delivered
        | .notApplied => .rejected
      (.ok (), { (a.releaseHead (record.markTerminal state (some detail) at_) false) with
        wake := true })

/-! ## Adapter events -/

/-- `observe_event`: consume one direct adapter event. -/
def observeEvent (a : Authority) (event : AdapterEvent) : Except HarnessError Unit × Authority :=
  if event.sequence ≤ a.lastAdapterSequence then
    (.error (.control "adapter event sequence is stale at submission authority"), a)
  else
    let a := { a with lastAdapterSequence := event.sequence }
    if event.kind ≠ "completed" then (.ok (), { a with wake := true })
    else match event.operation with
      | none => (.error (.control "completed adapter event requires exact operation ref"), a)
      | some ref =>
        if ref.bridgeEpoch ≠ a.bridgeEpoch then
          (.error (.control "completed adapter event bridge epoch mismatch"), a)
        else if ref ∈ a.consumedCompletions then
          (.error (.control "duplicate adapter completion cannot release a successor"), a)
        else match a.activeRecord with
          | none => (.error (.control "adapter completion does not match the active operation"), a)
          | some active =>
            if active.ref ≠ ref then
              (.error (.control "adapter completion does not match the active operation"), a)
            else if active.state = .dispatching then
              -- the call has not answered yet: its completion waits in the record
              if active.bufferedCompletionSequence ≠ none then
                (.error (.control "operation already has a buffered completion"), a)
              else
                (.ok (), a.put { active with
                  bufferedCompletionSequence := some event.sequence })
            else if active.state ≠ .delivered ∧ active.state ≠ .unknown then
              (.error (.control "active operation is not completion-eligible"), a)
            else
              (.ok (), { (a.releaseHead
                  (active.markTerminal .delivered active.detail event.createdAt) true) with
                wake := true })

/-- `notify_snapshot_updated`, after the bridge installed a snapshot. -/
def notifySnapshotUpdated (a : Authority) (snapshot : AdapterSnapshot) : Authority :=
  { a with snapshot := snapshot, wake := true }

/-! ## Reconciliation -/

/-- The first lock block of `reconcile`: answer from what is known, or
remember the ref and go and ask the adapter. -/
def reconcileStart (a : Authority) (requestId : String)
    (expectedBridgeEpoch : Option String) :
    Except HarnessError (Option ReconciliationResult) × Authority :=
  if expectedBridgeEpoch.any (· ≠ a.bridgeEpoch) then
    (.error (.bridgeEpochMismatch (expectedBridgeEpoch.getD "") a.bridgeEpoch), a)
  else match a.recordByRequestId requestId with
    | none => (.error (.control
        s!"submission {pyRepr requestId} is no longer retained for reconciliation"), a)
    | some record =>
      match record.reconciliation a.bridgeEpoch with
      | some known => (.ok (some known), a.touch record)
      | none => (.ok none,
          { a with reconciling := a.reconciling ++ [(requestId, record.ref)] })

/-- The second lock block of `reconcile`: write the adapter's answer on
the record the remembered ref's key names now. -/
def reconcileApply (a : Authority) (requestId : String) (ref : ControlOperationRef)
    (result : ReconciliationResult) : Except HarnessError ReconciliationResult × Authority :=
  if result.requestId ≠ requestId then
    (.error (.control "adapter reconciliation request id does not match"), a)
  else match a.recordByKey (refKey ref) with
    | none => (.error (.control "submission disappeared during reconciliation"), a)
    | some current =>
      let projected (state : SubmissionLifecycleState) : ReconciliationResult :=
        { result with bridgeEpoch := some a.bridgeEpoch, submissionState := some state }
      match result.state with
      | .accepted =>
        -- Accepted proves delivery, not turn completion: the gate stays pinned.
        (.ok (projected .delivered), { (a.put { current with
            state := .delivered
            acceptedAt := some result.reconciledAt
            vendorCorrelationId := result.vendorCorrelationId
            detail := result.detail
            updatedAt := result.reconciledAt }) with wake := true })
      | .rejected =>
        (.ok (projected .rejected), { (a.releaseHead
            (current.markTerminal .rejected result.detail result.reconciledAt) false) with
          wake := true })
      | .unsupported =>
        (.ok (projected .unsupported), { (a.releaseHead
            (current.markTerminal .unsupported result.detail result.reconciledAt) false) with
          wake := true })
      | .unresolved =>
        (.ok (projected current.state), { (a.put { current with
            detail := result.detail
            updatedAt := result.reconciledAt }) with wake := true })

/-! ## The dispatcher's lock blocks -/

/-- `_dispatchable_head_locked`: the queued head this step may dispatch.
`none` outside is the assertion that the head is retained failing. -/
def dispatchableHead (a : Authority) : Option (Option OperationRecord) :=
  match a.timeline with
  | [] => some none
  | key :: _ =>
    if a.active ≠ none then some none
    else match a.recordByKey key with
      -- a key without a record raises, and ends the dispatcher
      | none => none
      | some record =>
        if record.state ≠ .queued ∨ a.snapshotAllowsDispatch = false then some none
        else some (some record)

/-- The lock block of `_preflight_declined` for an adapter that sent
nothing. -/
def preflightDeclined (a : Authority) (record : OperationRecord) (detail at_ : String) :
    Authority :=
  let record := { record with detail := some detail, updatedAt := at_ }
  a.put (if record.ref.kind = .prompt
    then record.resolve (.receipt (record.receipt .queued a.bridgeEpoch))
    else record)

/-- The snapshot a possible send leaves behind. -/
def disconnectedSnapshot (snapshot : AdapterSnapshot) (detail : String) : AdapterSnapshot :=
  { control := .disconnected, activity := .unknown, acceptance := .unknown,
    raw := Keyed.set snapshot.raw "disconnect" detail }

/-- `_unknown_after_preflight_claim`. -/
def unknownAfterPreflightClaim (a : Authority) (record : OperationRecord)
    (detail : String) (vendor : Option String) (at_ : String) : Authority :=
  { a with
    active := some record.key
    objects := a.objects.put (record.markUnknown detail vendor at_ a.bridgeEpoch)
    snapshot := disconnectedSnapshot a.snapshot detail }

/-- `_claim_head_locked`: re-verify the head and mark it dispatching. -/
def claimHead (a : Authority) (record : OperationRecord) (at_ : String) : Option Authority :=
  if a.timeline.head? ≠ some record.key ∨ a.active ≠ none ∨ record.state ≠ .queued ∨
      record.ref.bridgeEpoch ≠ a.bridgeEpoch ∨ a.snapshotAllowsDispatch = false then
    none
  else
    some { a with
      objects := a.objects.put { record with state := .dispatching, updatedAt := at_ }
      active := some record.key }

/-- `_certified_pre_send_busy`. -/
def certifiedPreSendBusy (a : Authority) (record : OperationRecord) (detail at_ : String) :
    Except HarnessError Authority :=
  if a.active ≠ some record.key ∨ record.state ≠ .dispatching then
    .error (.control "pre-send busy result does not match active dispatch")
  else
    let record := { record with state := .queued, detail := some detail, updatedAt := at_ }
    .ok { a with
      active := none
      objects := a.objects.put (if record.ref.kind = .prompt
        then record.resolve (.receipt (record.receipt .queued a.bridgeEpoch))
        else record) }

/-- `_possible_send_failure`. -/
def possibleSendFailure (a : Authority) (record : OperationRecord) (detail : String)
    (vendor : Option String) (at_ : String) : Authority :=
  { a with
    objects := a.objects.put (record.markUnknown detail vendor at_ a.bridgeEpoch)
    snapshot := disconnectedSnapshot a.snapshot detail }

/-- `_incoherent_method_result`. -/
def incoherentMethodResult (a : Authority) (record : OperationRecord) (error at_ : String) :
    Except HarnessError Authority :=
  if a.active ≠ some record.key ∨ record.state ≠ .dispatching then
    .error (.control "incoherent adapter result does not match active dispatch")
  else
    .ok (a.put (record.markUnknown s!"incoherent adapter HarnessControlError: {error}"
      none at_ a.bridgeEpoch))

/-! ### Applying what the adapter method returned -/

/-- `_accept_prompt_locked`: the acceptance the submitter is owed. -/
def acceptPrompt (a : Authority) (record : OperationRecord) (receipt : SubmissionReceipt)
    (at_ : String) : OperationRecord :=
  let record := { record with
    state := .delivered
    acceptedAt := some (textOr receipt.acceptedAt at_) }
  record.resolve (.receipt (record.receipt .immediate a.bridgeEpoch))

/-- `_complete_delivered_locked`: the turn is over too. -/
def completeDelivered (a : Authority) (record : OperationRecord) (at_ : String) : Authority :=
  { (a.releaseHead (record.markTerminal .delivered record.detail at_) true) with wake := true }

/-- The receipt of a prompt, applied to its record. -/
def applyPromptReceipt (a : Authority) (record : OperationRecord) (result : MethodResult)
    (at_ : String) : Except String (Bool × Authority) :=
  match result with
  | .receipt receipt =>
    if receipt.requestId ≠ record.ref.operationId then
      .error "adapter receipt request id does not match operation"
    else if receipt.acceptance = .queued then
      -- A vendor queue escaped the common authority after dispatch crossed.
      .ok (false, a.put (record.markUnknown
        "adapter returned forbidden queued acceptance after dispatch"
        receipt.vendorCorrelationId at_ a.bridgeEpoch))
    else
      let record := { record with
        vendorCorrelationId := receipt.vendorCorrelationId
        detail := receipt.detail
        updatedAt := at_ }
      match receipt.acceptance with
      | .immediate =>
        let record := a.acceptPrompt record receipt at_
        if record.bufferedCompletionSequence = none ∧ receipt.raw.terminalCompletion = false then
          .ok (false, a.put record)
        else .ok (true, a.completeDelivered record at_)
      | .rejected =>
        let record := record.markTerminal .rejected receipt.detail at_
        let record := record.resolve (.receipt (record.receipt .rejected a.bridgeEpoch))
        .ok (true, { (a.releaseHead record false) with wake := true })
      | .unsupported =>
        let record := record.markTerminal .unsupported receipt.detail at_
        let record := record.resolve (.receipt (record.receipt .unsupported a.bridgeEpoch))
        .ok (true, { (a.releaseHead record false) with wake := true })
      | _ =>
        if record.bufferedCompletionSequence ≠ none then
          .ok (true, a.completeDelivered (a.acceptPrompt record receipt at_) at_)
        else
          .ok (false, a.put (record.markUnknown
            (textOr receipt.detail "adapter could not prove prompt acceptance")
            receipt.vendorCorrelationId at_ a.bridgeEpoch))
  | _ => .error "adapter prompt result must be a submission receipt"

/-- `_validate_set_result`: the message it raises, if any. -/
def validateSetResult (result : SetResult) (requestedValue : String) : Option String :=
  if result.requestedValue ≠ requestedValue then
    some "adapter set result does not match requested value"
  else match result.acceptance with
    | .echoVerified =>
      if result.ok = false ∨ result.effectiveValue = none then
        some "echo-verified setter requires effective evidence"
      else none
    | .immediate | .queued =>
      if result.ok = false ∨ result.effectiveValue ≠ none then
        some "accepted setter result has incoherent evidence"
      else none
    | .unknown | .unsupported =>
      if result.ok = true ∨ result.effectiveValue ≠ none then
        some "failed setter result cannot claim effect"
      else none

/-- The result of a setter, applied to its record. -/
def applySetResult (a : Authority) (record : OperationRecord) (result : MethodResult)
    (at_ : String) : Except String (Bool × Authority) :=
  match result with
  | .set result =>
    match validateSetResult result (record.requestedValue.getD "") with
    | some message => .error message
    | none =>
      let record := { record with detail := result.detail, updatedAt := at_ }
      -- the completion was there before the answer, so the value was taken
      if result.acceptance = .unknown ∧ record.bufferedCompletionSequence ≠ none then
        let record := record.resolve
          (.set { result with ok := true, acceptance := .immediate })
        .ok (true, a.completeDelivered record at_)
      else
        let record := record.resolve (.set result)
        if result.acceptance = .unknown then
          .ok (false, a.put { record with state := .unknown })
        else
          let state := if result.acceptance = .unsupported
            then SubmissionLifecycleState.unsupported else .delivered
          .ok (true, { (a.releaseHead (record.markTerminal state result.detail at_) false) with
            wake := true })
  | _ => .error "adapter setter result must be SetResult"

/-- `_apply_method_result`. Every refusal comes before any write. -/
def applyMethodResult (a : Authority) (record : OperationRecord) (result : MethodResult)
    (at_ : String) : Except String (Bool × Authority) :=
  if a.ledger.byKey record.key ≠ some record.ref.sequence ∨ a.active ≠ some record.key then
    .error "ordinary operation changed while adapter method ran"
  else if record.ref.kind = .prompt then a.applyPromptReceipt record result at_
  else a.applySetResult record result at_

end Authority

end AgentsRemember.Submission
