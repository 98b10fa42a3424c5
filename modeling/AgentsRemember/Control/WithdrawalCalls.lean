import AgentsRemember.Control.Withdrawals

/-!
# Control — WithdrawalCalls

Any number of calls in flight on one control channel. A call runs without a
pause between two of its awaits, so each section is one step; the session lock
is held from the step that takes it to the one that answers. The substrate
behind the channel moves on its own, and never queues an operation again whose
withdrawal it has granted.
-/

namespace AgentsRemember.Control

open Submission

/-! ## The substrate -/

/-- A row of the timeline. -/
structure OperationTimelineItem where
  identity : OperationIdentity
  source : Option SubmissionSource
  state : SubmissionLifecycleState

/-- The substrate behind the channel. -/
structure Substrate where
  rows : List OperationTimelineItem := []
  /-- The operations whose withdrawal it has granted. -/
  granted : List OperationIdentity := []
  granted_not_queued : ∀ row ∈ rows, row.identity ∈ granted → row.state ≠ .queued := by decide

/-- The row states that are still live. -/
def liveRowStates : List SubmissionLifecycleState := [.queued, .dispatching, .unknown]

/-- The live row of an operation. -/
def Substrate.liveRow (substrate : Substrate) (identity : OperationIdentity) :
    Option OperationTimelineItem :=
  substrate.rows.find? fun row => row.identity = identity && row.state ∈ liveRowStates

/-! ## Calls in flight -/

/-- The calls on a control channel. -/
inductive Call where
  | withdraw (operationRef withdrawalRef : Token) (withdrawRequestId : String)
  | status (operationRef : Token) (withdrawRequestId : String) (reconcile : Bool)
  | pending
  | fetch (recoveryRef : Token)
  | acknowledge (recoveryRef : Token) (disposition : Disposition)

/-- A call that waits for the session lock. -/
inductive Waiting where
  | withdraw (ticket : WithdrawalTicket)
  | reconcile (authorization : AuthorizationBinding) (record : Nat)

/-- The call that holds the lock, with the substrate's answer to it, once there is one. -/
inductive Holder where
  | reading (ticket : WithdrawalTicket)
  | asking (ticket : WithdrawalTicket) (result : Option WithdrawalResult)
  | reasking (authorization : AuthorizationBinding) (record : Nat)
      (result : Option WithdrawalResult)

/-- The channel, the substrate and the calls in flight. -/
structure ControlSystem where
  channel : ControlChannel := {}
  substrate : Substrate := {}
  waiting : List Waiting := []
  holder : Option Holder := none
  /-- What the last step answered to a caller. -/
  answered : Option Answer := none

/-- How a request to the substrate comes back. -/
inductive Crossing where
  | answered
  /-- The response is lost after request bytes were sent. -/
  | lost (detail : String)
  | unsent (detail : String)
  | refused (detail : String)
  | epochMismatch
deriving DecidableEq

/-- One section of a call, or one step of the substrate. -/
inductive ControlStep where
  | call (authorization : AuthorizationBinding) (call : Call) (now : Nat) (deletes : Bool)
  | acquire (i : Nat)
  | readRow
  /-- The substrate settles the holder's request, and its answer is on the way. -/
  | settle (result : WithdrawalResult) (substrate : Substrate)
  | land (crossing : Crossing) (now : Nat) (deletes : Bool)
  | abandonWaiting (i : Nat)
  | abandonHolder
  | substrateMoves (substrate : Substrate)
  | attachmentsMove (attachments : List (String × AttachmentOperation))
  | journalMoves (journal : List (String × JournalEntry))

section system
variable (authority : ControlAuthority) (s : ControlSystem)

/-- The system after a step that answers. -/
def ControlSystem.answer (channel : ControlChannel) (answer : Answer) : ControlSystem :=
  { s with channel := channel, answered := some answer }

/-- A call waits for the lock. -/
def ControlSystem.wait (channel : ControlChannel) (waiting : Waiting) : ControlSystem :=
  { s with channel := channel, waiting := s.waiting ++ [waiting], answered := none }

/-- The answer of the holder, which lets go of the lock. -/
def ControlSystem.release (channel : ControlChannel) (answer : Answer) : ControlSystem :=
  { s with channel := channel, holder := none, answered := some answer }

/-- `_verify_refs`: both references are the caller's, and name one row. -/
def verifyRefs (authorization : AuthorizationBinding) (operationRef withdrawalRef : Token) :
    Except String (OperationIdentity × ControlRef) := do
  let binding := authority.binding authorization
  let operation ← decodeRef operationRef .operationRef binding
  let withdrawal ← decodeRef withdrawalRef .withdrawalRef binding
  match operationRef with
  | none => .error "control reference failed integrity verification"
  | some ref =>
    if withdrawal.identity ≠ operation.identity then
      .error "withdrawal ref does not name the operation ref's row"
    else .ok (operation.identity, ref)

/-- The message of a request id used twice. -/
def conflictMessage (withdrawRequestId : String) : String :=
  "withdraw request id '" ++ withdrawRequestId ++ "' already belongs to its first tuple"

/-- The answer to a request whose record is retained already. -/
def replayRetained (ticket : WithdrawalTicket) (record : WithdrawalRecord) : Answer :=
  if record.fingerprint ≠ ticket.fingerprint then
    .raised (conflictMessage ticket.withdrawRequestId)
  else .response (replayResponse record)

/-- The request is the latest used. -/
def ControlChannel.touch (c : ControlChannel) (withdrawRequestId : String) : ControlChannel :=
  { c with withdrawals := Keyed.moveToEnd c.withdrawals withdrawRequestId }

/-- The first section of `withdraw`, on the swept channel. -/
def beginWithdraw (c : ControlChannel) (authorization : AuthorizationBinding)
    (identity : OperationIdentity) (operationRef : ControlRef) (withdrawRequestId : String) :
    ControlSystem :=
  let ticket : WithdrawalTicket := ⟨authorization, identity, operationRef,
    authority.fingerprint authorization identity withdrawRequestId, withdrawRequestId⟩
  match c.retained withdrawRequestId with
  | none => s.wait c (.withdraw ticket)
  | some (_, record) =>
    if record.fingerprint ≠ ticket.fingerprint then
      s.answer c (.raised (conflictMessage withdrawRequestId))
    else s.answer (c.touch withdrawRequestId) (.response (replayResponse record))

/-- The first section of `withdraw_status`, on the swept channel. -/
def beginStatus (c : ControlChannel) (authorization : AuthorizationBinding) (operationRef : Token)
    (withdrawRequestId : String) (reconcile : Bool) : ControlSystem :=
  match c.retained withdrawRequestId with
  | none => s.answer c (.raised ("withdrawal '" ++ withdrawRequestId ++
      "' is not retained by this control authority"))
  | some (i, record) =>
    match decodeRef operationRef .operationRef (authority.binding authorization) with
    | .error message => s.answer c (.raised message)
    | .ok target =>
      if target.identity ≠ record.operation then
        s.answer c (.raised "operation ref does not name this withdrawal's operation")
      else if reconcile = true ∧ record.phase = .unknown then
        s.wait (c.touch withdrawRequestId) (.reconcile authorization i)
      else s.answer (c.touch withdrawRequestId) (withdrawalProjection record)

/-- The first section of a call: the sweep of the recoveries, and what follows it. -/
def ControlSystem.call (authorization : AuthorizationBinding) (now : Nat) (deletes : Bool) :
    Call → ControlSystem
  | .withdraw operationRef withdrawalRef withdrawRequestId =>
    match verifyRefs authority authorization operationRef withdrawalRef with
    | .error message => s.answer s.channel (.raised message)
    | .ok (identity, ref) =>
      -- what has expired is swept before anything is looked up
      match sweepRecoveries now deletes s.channel with
      | .error c => s.answer c (.raised "attachment bytes were not deleted")
      | .ok c => beginWithdraw authority s c authorization identity ref withdrawRequestId
  | .status operationRef withdrawRequestId reconcile =>
    match sweepRecoveries now deletes s.channel with
    | .error c => s.answer c (.raised "attachment bytes were not deleted")
    | .ok c => beginStatus authority s c authorization operationRef withdrawRequestId reconcile
  | .pending =>
    match sweepRecoveries now deletes s.channel with
    | .error c => s.answer c (.raised "attachment bytes were not deleted")
    | .ok c =>
      let (answer, c') := pendingRecoveries authority c authorization
      s.answer c' answer
  | .fetch recoveryRef =>
    match sweepRecoveries now deletes s.channel with
    | .error c => s.answer c (.raised "attachment bytes were not deleted")
    | .ok c => s.answer c (fetchRecovery authority c authorization recoveryRef)
  | .acknowledge recoveryRef disposition =>
    match sweepRecoveries now deletes s.channel with
    | .error c => s.answer c (.raised "attachment bytes were not deleted")
    | .ok c =>
      let (answer, c') := acknowledgeRecovery authority deletes c authorization recoveryRef
        disposition
      s.answer c' answer

/-- The first section under the lock; only `withdraw` looks at the ledger again. -/
def ControlSystem.hold (waiting : Waiting) : ControlSystem :=
  match waiting with
  | .withdraw ticket =>
    match s.channel.retained ticket.withdrawRequestId with
    | some (_, record) => s.answer s.channel (replayRetained ticket record)
    | none => { s with holder := some (.reading ticket), answered := none }
  | .reconcile authorization record =>
    { s with holder := some (.reasking authorization record none), answered := none }

/-- Store the record of a withdrawal, and answer with its response. -/
def ControlSystem.settleWith (channel : ControlChannel) (record : WithdrawalRecord) :
    ControlSystem :=
  s.release { channel with toWithdrawalBooks := channel.storeWithdrawal record }
    (.response record.response)

/-- The row decides whether the substrate is asked at all. -/
def ControlSystem.readRow (ticket : WithdrawalTicket) : ControlSystem :=
  match s.substrate.liveRow ticket.identity with
  | none => s.settleWith s.channel (settledFailure authority ticket .notFound
      "the operation is not a retained cockpit queue row")
  | some row =>
    if row.source ≠ some .cockpit then
      s.settleWith s.channel (settledFailure authority ticket .notFound
        "the operation is not a retained cockpit queue row")
    else if row.state ≠ .queued then
      let outcome : WithdrawalOutcome :=
        if row.state = .dispatching then .alreadyDispatching else .deliveryUnknown
      s.settleWith s.channel (settledFailure authority ticket outcome
        ("the queue row is already " ++ row.state.wire))
    else { s with holder := some (.asking ticket none), answered := none }

/-- The last section of `withdraw`. -/
def ControlSystem.landWithdraw (now : Nat) (deletes : Bool) (ticket : WithdrawalTicket)
    (result : Option WithdrawalResult) : Crossing → Option ControlSystem
  | .answered => result.map fun result =>
    match applyWithdrawalResult authority deletes now s.channel ticket result with
    | .error c => s.release c (.raised "attachment bytes were not deleted")
    | .ok (record, c) => s.settleWith c record
  | .epochMismatch => some (s.settleWith s.channel (settledFailure authority ticket .epochMismatch
      "the bridge epoch flipped while the withdrawal crossed"))
  | .lost detail => some (s.settleWith s.channel (unknownWithdrawal authority ticket detail))
  | .unsent detail => some (s.release s.channel (.raised detail))
  | .refused detail => some (s.release s.channel (.raised detail))

/-- The cells that a re-driven record takes over from a fresh one. -/
def WithdrawalRecord.redriven (record fresh : WithdrawalRecord) : WithdrawalRecord :=
  { record with
    phase := fresh.phase
    outcome := fresh.outcome
    detail := fresh.detail
    withdrawnAt := fresh.withdrawnAt
    recoveryState := fresh.recoveryState
    recoveryRef := fresh.recoveryRef
    recoveryExpiresAt := fresh.recoveryExpiresAt
    response := fresh.response
    revision := record.revision + 1 }

/-- What a reconcile asks with. -/
def WithdrawalRecord.ticket (record : WithdrawalRecord) (authorization : AuthorizationBinding) :
    WithdrawalTicket :=
  ⟨authorization, record.operation, mintOperationRef authority authorization record.operation,
    record.fingerprint, record.withdrawRequestId⟩

/-- The last section of a reconcile, on the record that it has held since its first. -/
def ControlSystem.landReconcile (now : Nat) (deletes : Bool)
    (authorization : AuthorizationBinding) (i : Nat) (record : WithdrawalRecord)
    (result : Option WithdrawalResult) : Crossing → Option ControlSystem
  | .answered => result.map fun result =>
    match applyWithdrawalResult authority deletes now s.channel
        (record.ticket authority authorization) result with
    | .error c => s.release c (.raised "attachment bytes were not deleted")
    | .ok (fresh, c) =>
      let updated := record.redriven fresh
      s.release { c with toWithdrawalBooks := c.setRecord i updated } (withdrawalProjection updated)
  | .epochMismatch => some (s.release s.channel (.raised "submission authority epoch changed"))
  | .lost _ => some (s.release s.channel (withdrawalProjection record))
  | .unsent detail => some (s.release s.channel (.raised detail))
  | .refused detail =>
    let updated := { record with detail := some detail }
    some (s.release { s.channel with toWithdrawalBooks := s.channel.setRecord i updated }
      (withdrawalProjection updated))

/-- The holder's request has come back. -/
def ControlSystem.land (crossing : Crossing) (now : Nat) (deletes : Bool) : Option ControlSystem :=
  match s.holder with
  | some (.asking ticket result) => s.landWithdraw authority now deletes ticket result crossing
  | some (.reasking authorization i result) =>
    (s.channel.records[i]?).bind fun record =>
      s.landReconcile authority now deletes authorization i record result crossing
  | _ => none

/-- The operation that the holder has asked the substrate about. -/
def Holder.asked (channel : ControlChannel) : Holder → Option OperationIdentity
  | .reading _ => none
  | .asking ticket _ => some ticket.identity
  | .reasking _ i _ => (channel.records[i]?).map (·.operation)

/-- The substrate has settled the holder's request. -/
def Holder.answeredBy (result : WithdrawalResult) : Holder → Holder
  | .reading ticket => .reading ticket
  | .asking ticket _ => .asking ticket (some result)
  | .reasking authorization i _ => .reasking authorization i (some result)

/-- The substrate forgets no withdrawal that it has granted. -/
def Substrate.Extends (substrate later : Substrate) : Prop :=
  ∀ identity ∈ substrate.granted, identity ∈ later.granted

instance (substrate later : Substrate) : Decidable (substrate.Extends later) :=
  inferInstanceAs (Decidable (∀ identity ∈ substrate.granted, identity ∈ later.granted))

/-- One step; none where nothing is there to take it. -/
def ControlSystem.step : ControlStep → Option ControlSystem
  | .call authorization call now deletes => some (s.call authority authorization now deletes call)
  | .acquire i =>
    -- the session lock has one holder
    if s.holder ≠ none then none
    else (s.waiting[i]?).map fun waiting =>
      { s with waiting := s.waiting.eraseIdx i }.hold waiting
  | .readRow =>
    match s.holder with
    | some (.reading ticket) => some (s.readRow authority ticket)
    | _ => none
  | .settle result substrate =>
    s.holder.bind fun holder => (holder.asked s.channel).bind fun identity =>
      if s.substrate.Extends substrate ∧
          (result.outcome = .withdrawn → identity ∈ substrate.granted) then
        some { s with
          substrate := substrate, holder := some (holder.answeredBy result), answered := none }
      else none
  | .land crossing now deletes => s.land authority crossing now deletes
  | .abandonWaiting i =>
    some { s with waiting := s.waiting.eraseIdx i, answered := none }
  | .abandonHolder => some { s with holder := none, answered := none }
  | .substrateMoves substrate =>
    if s.substrate.Extends substrate then some { s with substrate := substrate, answered := none }
    else none
  | .attachmentsMove attachments =>
    some { s with channel := { s.channel with attachments := attachments }, answered := none }
  | .journalMoves journal =>
    some { s with channel := { s.channel with journal := journal }, answered := none }

end system

end AgentsRemember.Control
