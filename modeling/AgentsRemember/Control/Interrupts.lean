import AgentsRemember.Control.Evidence
import AgentsRemember.Control.WithdrawalCalls

/-!
# Control — Interrupts

The interrupt ledger of one control channel with any number of calls in flight,
beside the harness that runs its turns. A call runs without a pause between two
of its awaits, so each such section is one step; the session lock is held from
the step that takes it to the one that answers. The substrate may answer a
native write in any way, and the rows of the timeline may be any.
-/

namespace AgentsRemember.Control

open Submission

/-! ## Records -/

/-- What the harness said to the native write. -/
inductive Acknowledgement where
  | requested | accepted | unknown | rejected
deriving DecidableEq

/-- A record of the ledger. -/
structure InterruptRecord where
  requestId : String
  fingerprint : String
  revision : Nat
  harnessId : HarnessId
  bridgeEpoch : String
  turnId : String
  acknowledgement : Acknowledgement
  settlement : Settlement
  nativeCorrelationId : Option String
  requestedAt : String
  settledAt : Option String
  detail : Option String
  operationId : Option String
  evidenceFloor : Nat

/-- The exact turn that is interrupted, and the request that interrupts it. -/
structure InterruptTicket where
  turnId : String
  requestId : String
  fingerprint : String
  evidenceFloor : Nat

/-- What a caller is shown of a record. -/
structure InterruptOperation where
  requestId : String
  requestFingerprint : String
  revision : Nat
  bridgeEpoch : String
  turnId : String
  acknowledgement : Acknowledgement
  settlement : Settlement
  nativeCorrelationId : Option String
  requestedAt : String
  settledAt : Option String
  detail : Option String

/-- The settlements that go with an acknowledgement. -/
def allowedSettlements : Acknowledgement → List Settlement
  | .requested => [.pending]
  | .accepted => [.pending, .interrupted, .alreadySettled, .failed]
  | .unknown => [.pending, .interrupted, .alreadySettled, .failed]
  | .rejected => [.failed]

/-- `_projection`, with the validator of the wire model. -/
def InterruptRecord.projection (record : InterruptRecord) : Except String InterruptOperation :=
  if record.settlement ∉ allowedSettlements record.acknowledgement then
    .error "interrupt acknowledgement/settlement product is contradictory"
  else if record.settledAt.isSome ≠ (record.settlement != .pending) then
    .error "interrupt settledAt must match terminal settlement"
  else .ok {
    requestId := record.requestId
    requestFingerprint := record.fingerprint
    revision := record.revision
    bridgeEpoch := record.bridgeEpoch
    turnId := record.turnId
    acknowledgement := record.acknowledgement
    settlement := record.settlement
    nativeCorrelationId := record.nativeCorrelationId
    requestedAt := record.requestedAt
    settledAt := record.settledAt
    detail := record.detail }

/-! ## The native write -/

/-- What the substrate answers to the native write. -/
inductive InterruptAcknowledgement where
  | accepted | rejected | unsupported | unknown

/-- The answer of the substrate. -/
structure InterruptResult where
  acknowledgement : InterruptAcknowledgement
  operation : Option String := none
  vendorCorrelationId : Option String := none
  detail : Option String := none

/-- How a native write comes back. -/
inductive InterruptCrossing where
  | answered (result : InterruptResult)
  /-- The acknowledgement is lost after request bytes were sent. -/
  | lost (detail : String)
  | unsent (detail : String)
  | refused (detail : String)

/-- `_apply_interrupt_result` -/
def InterruptRecord.applyResult (record : InterruptRecord) (now : String)
    (result : InterruptResult) : InterruptRecord :=
  let answered := { record with
    nativeCorrelationId := result.vendorCorrelationId
    operationId := result.operation.orElse fun _ => record.operationId
    revision := record.revision + 1 }
  match result.acknowledgement with
  | .accepted => { answered with acknowledgement := .accepted, detail := result.detail }
  | .unknown => { answered with acknowledgement := .unknown, detail := result.detail }
  -- rejected and unsupported both settle failed with the native detail
  | .rejected | .unsupported => { answered with
      acknowledgement := .rejected
      settlement := .failed
      settledAt := some now
      -- `result.detail or …`: an empty detail is replaced as well
      detail := some (match result.detail with
        | some detail => if detail = "" then "native interrupt was not accepted" else detail
        | none => "native interrupt was not accepted") }

/-- What an interrupt authority goes by. -/
structure InterruptAuthority where
  harness : HarnessId
  bridgeEpoch : String
  fingerprint : AuthorizationBinding → String → String → String

/-- The record before its native write. -/
def InterruptTicket.requested (authority : InterruptAuthority) (ticket : InterruptTicket)
    (requestedAt : String) : InterruptRecord where
  requestId := ticket.requestId
  fingerprint := ticket.fingerprint
  revision := 1
  harnessId := authority.harness
  bridgeEpoch := authority.bridgeEpoch
  turnId := ticket.turnId
  acknowledgement := .requested
  settlement := .pending
  nativeCorrelationId := none
  requestedAt := requestedAt
  settledAt := none
  detail := none
  operationId := none
  evidenceFloor := ticket.evidenceFloor

/-- `_drive_interrupt` behind the write: the record that is kept, where one is. -/
def driveInterrupt (authority : InterruptAuthority) (ticket : InterruptTicket)
    (requestedAt now : String) : InterruptCrossing → Except String InterruptRecord
  | .answered result => .ok ((ticket.requested authority requestedAt).applyResult now result)
  | .lost detail => .ok { ticket.requested authority requestedAt with
      acknowledgement := .unknown
      revision := 2
      detail := some ("interrupt acknowledgement was lost after request bytes were sent: " ++
        detail) }
  | .unsent detail => .error detail
  | .refused detail => .ok { ticket.requested authority requestedAt with
      acknowledgement := .rejected
      settlement := .failed
      settledAt := some now
      revision := 2
      detail := some detail }

/-- `_redrive_unknown` behind the write. -/
def InterruptRecord.redriven (record : InterruptRecord) (now : String) :
    InterruptCrossing → Except String InterruptRecord
  | .answered result => .ok (record.applyResult now result)
  | .lost _ => .ok record
  | .unsent detail => .error detail
  -- the pair is no longer live: settlement observation decides the terminal state
  | .refused detail => .ok { record with detail := some detail }

/-- The record, settled. -/
def InterruptRecord.settle (record : InterruptRecord) (now : String) (outcome : Outcome) :
    InterruptRecord :=
  { record with
    settlement := outcome.1
    settledAt := some now
    detail := some outcome.2
    revision := record.revision + 1 }

/-! ## The channel -/

/-- The interrupt ledger. -/
structure InterruptChannel where
  /-- Every record there has been, by its place. -/
  records : List InterruptRecord := []
  /-- What the channel names by request. -/
  interrupts : List (String × Nat) := []

/-- The cap on the ledger. -/
def maxInterruptsPerChannel : Nat := 64

section channel
variable (c : InterruptChannel)

/-- The record under a request, with its place. -/
def InterruptChannel.retained (requestId : String) : Option (Nat × InterruptRecord) :=
  (c.interrupts.lookup requestId).bind fun i => (c.records[i]?).map fun record => (i, record)

/-- The request is the latest used. -/
def InterruptChannel.touch (requestId : String) : InterruptChannel :=
  { c with interrupts := Keyed.moveToEnd c.interrupts requestId }

/-- A record, written at its place. -/
def InterruptChannel.setRecord (i : Nat) (record : InterruptRecord) : InterruptChannel :=
  { c with records := c.records.set i record }

/-- The oldest settled interrupt goes first, and the oldest of all where none is settled. -/
def victim (records : List InterruptRecord) (interrupts : List (String × Nat)) : Option String :=
  ((interrupts.find? fun entry =>
      ((records[entry.2]?).map (·.settlement)).getD .pending != .pending).or
    interrupts.head?).map Prod.fst

/-- The loop of `_store`, which removes one entry a round. -/
def trimInterrupts (records : List InterruptRecord) :
    Nat → List (String × Nat) → List (String × Nat)
  | 0, interrupts => interrupts
  | rounds + 1, interrupts =>
    if interrupts.length ≤ maxInterruptsPerChannel then interrupts
    else match victim records interrupts with
      | none => interrupts
      | some requestId => trimInterrupts records rounds (Keyed.erase interrupts requestId)

/-- `_store` -/
def InterruptChannel.store (record : InterruptRecord) : InterruptChannel :=
  let records := c.records ++ [record]
  let interrupts := Keyed.set c.interrupts record.requestId c.records.length
  { records := records, interrupts := trimInterrupts records interrupts.length interrupts }

end channel

end AgentsRemember.Control
