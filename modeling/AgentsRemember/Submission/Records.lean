/-!
# Submission — Records

The vocabulary of the hosted-harness control bridge and the one mutable
record the submission authority keeps for each ordinary operation
(`harness_submission_ledger.OperationRecord`): its lifecycle state, its
evidence, and the receipts it answers with. A record is shared between
the dispatcher, the reads and the operator paths, so each transition of
it is a function here and the authority decides under its lock which
one to apply.
-/

namespace AgentsRemember.Submission

/-! ## The control wire vocabulary -/

/-- Whether a session can be controlled. -/
inductive ControlState where
  | starting | ready | disconnected | failed | unsupported
  deriving DecidableEq

/-- What an agent is doing. -/
inductive ActivityState where
  | idle | running | blocked | settling | unknown
  deriving DecidableEq

/-- What a session does with a prompt. -/
inductive AcceptanceState where
  | immediate | queued | rejected | unknown | unsupported
  deriving DecidableEq

/-- Where a prompt came from. -/
inductive SubmissionSource where
  | cockpit | terminal | durable
  deriving DecidableEq

/-- The kinds of operation. -/
inductive ControlOperationKind where
  | prompt | setModel | setEffort
  deriving DecidableEq

/-- Where an operation stands. -/
inductive SubmissionLifecycleState where
  | queued | dispatching | delivered | withdrawn | unknown | rejected | unsupported
  deriving DecidableEq

/-- What a setter came to. -/
inductive SetAcceptance where
  | echoVerified | immediate | queued | unknown | unsupported
  deriving DecidableEq

/-- What a reconciliation came to. -/
inductive ReconciliationState where
  | accepted | rejected | unresolved | unsupported

/-- The text a literal has on the wire, where a message quotes it. -/
def ControlOperationKind.wire : ControlOperationKind → String
  | .prompt => "prompt"
  | .setModel => "set-model"
  | .setEffort => "set-effort"

/-- The state on the wire. -/
def SubmissionLifecycleState.wire : SubmissionLifecycleState → String
  | .queued => "queued"
  | .dispatching => "dispatching"
  | .delivered => "delivered"
  | .withdrawn => "withdrawn"
  | .unknown => "unknown"
  | .rejected => "rejected"
  | .unsupported => "unsupported"

/-- The snapshot of an adapter. -/
structure AdapterSnapshot where
  control : ControlState
  activity : ActivityState
  acceptance : AcceptanceState
  raw : List (String × String) := []

/-- An asset of a prompt. -/
structure AssetReference where
  assetId : String
  mimeType : String
  byteSize : Nat
  sha256 : String
  deriving DecidableEq

/-- Exact ordinary-operation identity shared with adapter events. -/
structure ControlOperationRef where
  bridgeEpoch : String
  sequence : Nat
  operationId : String
  kind : ControlOperationKind
  deriving DecidableEq

/-- The key of an operation. -/
abbrev OperationKey := ControlOperationKind × String

/-- The key in a reference. -/
def refKey (ref : ControlOperationRef) : OperationKey := (ref.kind, ref.operationId)

/-- The vendor detail a receipt carries: the asset ids it echoes and the
adapter's own end-of-turn stamp (`raw["terminalCompletion"]`). -/
structure ReceiptRaw where
  assetIds : List String := []
  terminalCompletion : Bool := false
  deriving DecidableEq

/-- The receipt of a prompt. -/
structure SubmissionReceipt where
  requestId : String
  acceptance : AcceptanceState
  submittedAt : String
  vendorCorrelationId : Option String := none
  acceptedAt : Option String := none
  detail : Option String := none
  raw : ReceiptRaw := {}
  bridgeEpoch : Option String := none
  deriving DecidableEq

/-- The result of a setter. -/
structure SetResult where
  ok : Bool
  acceptance : SetAcceptance
  requestedValue : String
  effectiveValue : Option String := none
  detail : Option String := none
  deriving DecidableEq

/-- The result of a reconciliation. -/
structure ReconciliationResult where
  requestId : String
  state : ReconciliationState
  reconciledAt : String
  vendorCorrelationId : Option String := none
  detail : Option String := none
  bridgeEpoch : Option String := none
  submissionState : Option SubmissionLifecycleState := none

/-- A prompt as it is submitted. -/
structure PromptRequest where
  requestId : String
  source : SubmissionSource
  text : String
  submittedAt : String
  expectedBridgeEpoch : Option String := none
  assets : List AssetReference := []

/-- One normalized adapter event; only `completed` decides anything. -/
structure AdapterEvent where
  sequence : Nat
  kind : String
  createdAt : String
  operation : Option ControlOperationRef := none

/-- Python's `text or fallback` on an optional text: `None` and the empty
text both fall back. -/
def textOr (text : Option String) (fallback : String) : String :=
  match text with
  | some s => if s = "" then fallback else s
  | none => fallback

/-- Python's `repr` of a text with nothing in it to escape. -/
def pyRepr (text : String) : String := "\x27" ++ text ++ "\x27"

/-! ## The record -/

/-- What a waiting submitter is handed. -/
inductive OperationResult where
  | receipt (r : SubmissionReceipt)
  | set (r : SetResult)
  deriving DecidableEq

/-- The future a submitter waits on. -/
inductive ResultFuture where
  | waiting
  | done (value : OperationResult)
  deriving DecidableEq

/-- The record of one operation. -/
structure OperationRecord where
  ref : ControlOperationRef
  state : SubmissionLifecycleState
  submittedAt : String
  updatedAt : String
  source : Option SubmissionSource := none
  payloadDigest : Option String := none
  text : Option String := none
  requestedValue : Option String := none
  acceptedAt : Option String := none
  vendorCorrelationId : Option String := none
  detail : Option String := none
  bufferedCompletionSequence : Option Nat := none
  resultFuture : Option ResultFuture := none
  assets : List AssetReference := []
  deriving DecidableEq

namespace OperationRecord

/-- The key of a record. -/
def key (record : OperationRecord) : OperationKey := refKey record.ref

/-- The record is not settled. -/
def live (record : OperationRecord) : Bool :=
  record.state = .queued ∨ record.state = .dispatching ∨ record.state = .unknown

/-- Hand the waiting submitter its result, if one is still waiting. -/
def resolve (record : OperationRecord) (value : OperationResult) : OperationRecord :=
  match record.resultFuture with
  | some .waiting => { record with resultFuture := some (.done value) }
  | _ => record

/-- `mark_terminal`. -/
def markTerminal (record : OperationRecord) (state : SubmissionLifecycleState)
    (detail : Option String) (at_ : String) : OperationRecord :=
  { record with
    state := state
    detail := detail
    updatedAt := at_
    acceptedAt := if state = .delivered ∧ record.acceptedAt = none then some at_
      else record.acceptedAt
    -- Terminal tombstones keep the digest and metadata, never the prompt text.
    text := none
    assets := [] }

/-- The receipt a record answers with. -/
def receipt (record : OperationRecord) (acceptance : AcceptanceState)
    (bridgeEpoch : String) (detail : Option String := none) : SubmissionReceipt :=
  { requestId := record.ref.operationId
    acceptance := acceptance
    submittedAt := record.submittedAt
    vendorCorrelationId := record.vendorCorrelationId
    acceptedAt := record.acceptedAt
    detail := detail.or record.detail
    raw := { assetIds := record.assets.map (·.assetId) }
    bridgeEpoch := some bridgeEpoch }

/-- Install the ambiguity blocker and settle whoever is waiting. -/
def markUnknown (record : OperationRecord) (detail : String)
    (vendorCorrelationId : Option String) (at_ bridgeEpoch : String) :
    OperationRecord :=
  let blocked := { record with
    state := .unknown
    detail := some detail
    vendorCorrelationId := vendorCorrelationId
    updatedAt := at_ }
  if blocked.ref.kind = .prompt then
    blocked.resolve (.receipt (blocked.receipt .unknown bridgeEpoch))
  else
    match blocked.requestedValue with
    | some value => blocked.resolve (.set
        { ok := false, acceptance := .unknown, requestedValue := value,
          detail := some detail })
    | none => blocked

/-- The receipt a re-submission of the same request id and payload is owed. -/
def duplicateReceipt (record : OperationRecord) (bridgeEpoch : String) :
    SubmissionReceipt :=
  match record.state with
  | .queued => record.receipt .queued bridgeEpoch record.detail
  | .dispatching => record.receipt .unknown bridgeEpoch
      (some "dispatch is in flight; query status/reconcile with the same request id")
  | .delivered => record.receipt .immediate bridgeEpoch record.detail
  | .withdrawn => record.receipt .rejected bridgeEpoch
      (some "the queued submission was withdrawn and will not be dispatched")
  | .unknown => record.receipt .unknown bridgeEpoch record.detail
  | .rejected => record.receipt .rejected bridgeEpoch record.detail
  | .unsupported => record.receipt .unsupported bridgeEpoch record.detail

/-- What the record already proves about delivery; `none` while ambiguous. -/
def reconciliation (record : OperationRecord) (bridgeEpoch : String) :
    Option ReconciliationResult :=
  let known (state : ReconciliationState) : ReconciliationResult :=
    { requestId := record.ref.operationId
      state := state
      reconciledAt := textOr record.acceptedAt record.updatedAt
      vendorCorrelationId := record.vendorCorrelationId
      detail := record.detail
      bridgeEpoch := some bridgeEpoch
      submissionState := some record.state }
  match record.state with
  | .unknown => none
  | .queued | .dispatching | .delivered => some (known .accepted)
  | .withdrawn | .rejected => some (known .rejected)
  | .unsupported => some (known .unsupported)

/-! ### What the transitions leave alone

Every transition keeps the identity of its record, and all but the ones
named for it keep the lifecycle state. -/

@[simp] theorem resolve_ref (r : OperationRecord) (v : OperationResult) :
    (r.resolve v).ref = r.ref := by
  unfold resolve; split <;> rfl

@[simp] theorem resolve_state (r : OperationRecord) (v : OperationResult) :
    (r.resolve v).state = r.state := by
  unfold resolve; split <;> rfl

@[simp] theorem resolve_buffered (r : OperationRecord) (v : OperationResult) :
    (r.resolve v).bufferedCompletionSequence = r.bufferedCompletionSequence := by
  unfold resolve; split <;> rfl

@[simp] theorem resolve_key (r : OperationRecord) (v : OperationResult) :
    (r.resolve v).key = r.key := by
  simp [key]

@[simp] theorem markTerminal_ref (r : OperationRecord) (s : SubmissionLifecycleState)
    (d : Option String) (t : String) : (r.markTerminal s d t).ref = r.ref := rfl

@[simp] theorem markTerminal_key (r : OperationRecord) (s : SubmissionLifecycleState)
    (d : Option String) (t : String) : (r.markTerminal s d t).key = r.key := rfl

@[simp] theorem markTerminal_state (r : OperationRecord) (s : SubmissionLifecycleState)
    (d : Option String) (t : String) : (r.markTerminal s d t).state = s := rfl

@[simp] theorem markUnknown_ref (r : OperationRecord) (d : String)
    (v : Option String) (t e : String) : (r.markUnknown d v t e).ref = r.ref := by
  unfold markUnknown
  dsimp only
  split
  · simp
  · split <;> simp

@[simp] theorem markUnknown_state (r : OperationRecord) (d : String)
    (v : Option String) (t e : String) : (r.markUnknown d v t e).state = .unknown := by
  unfold markUnknown
  dsimp only
  split
  · simp
  · split <;> simp

@[simp] theorem markUnknown_key (r : OperationRecord) (d : String)
    (v : Option String) (t e : String) : (r.markUnknown d v t e).key = r.key := by
  simp [key]

@[simp] theorem markUnknown_buffered (r : OperationRecord) (d : String)
    (v : Option String) (t e : String) :
    (r.markUnknown d v t e).bufferedCompletionSequence
      = r.bufferedCompletionSequence := by
  unfold markUnknown
  dsimp only
  split
  · simp
  · split <;> simp

end OperationRecord

/-- The evictable states of the ledger, `EVICTABLE_STATES`. -/
def evictableStates : List SubmissionLifecycleState :=
  [.delivered, .withdrawn, .rejected, .unsupported]

end AgentsRemember.Submission
